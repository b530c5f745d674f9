import Dui.HostState
import Dui.Transition

/-! The cursor service across the two executors, cut at every locked section, at
every post and around the native call. Requests are coalesced through one pending
flag; replacing the backend resets it while tasks for the old one may still be
queued. -/
namespace Dui
open HostWindowState Transition

/-- `valid_cursor`. -/
def SystemCursor.valid : SystemCursor → Bool
  | .unknown _ => false
  | _ => true

namespace HostWindowState

inductive SetCursorOutcome where
  | ignored
  | exhausted
  | desired
  deriving DecidableEq, Repr

/-- The section of `HostWindow::set_cursor`. -/
def setCursorLocked (state : HostWindowState) (cursor : SystemCursor) :
    SetCursorOutcome × HostWindowState :=
  if ¬ cursor.valid ∨ ¬ state.running then (.ignored, state)
  else if state.cursorRevision = maxGeneration then (.exhausted, state)
  else (.desired, { state with
    desiredCursor := cursor, cursorRevision := state.cursorRevision + 1 })

/-- The section of `schedule_cursor_sync`: the backend and the service a task is
posted for. -/
def scheduleCursorLocked (state : HostWindowState) : Option (Nat × Nat) × HostWindowState :=
  match state.cursorBackend with
  | none => (none, state)
  | some backend =>
    if ¬ state.running ∨ state.cursorSyncPending ∨
        state.appliedCursor = some state.desiredCursor then (none, state)
    else
      (some (backend, state.cursorServiceGeneration), { state with
        cursorSyncPending := true, cursorPendingService := state.cursorServiceGeneration })

/-- The first section of a cursor task: the cursor to set and its revision. -/
def beginCursorLocked (state : HostWindowState) (backend service : Nat) :
    Option (SystemCursor × Nat) :=
  if ¬ state.running ∨ state.cursorBackend ≠ some backend ∨
      state.cursorServiceGeneration ≠ service then none
  else some (state.desiredCursor, state.cursorRevision)

/-- The last section of a cursor task; whether a newer cursor has to be scheduled. -/
def finishCursorLocked (state : HostWindowState) (backend service : Nat) (cursor : SystemCursor)
    (revision : Nat) (succeeded : Bool) : Bool × HostWindowState :=
  if state.cursorBackend ≠ some backend ∨ state.cursorServiceGeneration ≠ service ∨
      state.cursorPendingService ≠ service then (false, state)
  else
    let idle := { state with cursorSyncPending := false, cursorPendingService := 0 }
    if succeeded then
      (state.running && (state.desiredCursor ≠ cursor),
        { idle with appliedCursor := some cursor })
    else (state.running && (state.cursorRevision ≠ revision), idle)

inductive SetCursorBackendOutcome where
  | ignored
  | exhausted
  | replaced (service : Nat)
  deriving DecidableEq, Repr

/-- The section of `HostWindowDriver::set_cursor_backend`. -/
def setCursorBackendLocked (state : HostWindowState) (backend : Option Nat) :
    SetCursorBackendOutcome × HostWindowState :=
  if ¬ state.running then (.ignored, state)
  else if state.cursorServiceGeneration = maxGeneration then (.exhausted, state)
  else
    (.replaced (state.cursorServiceGeneration + 1), { state with
      cursorServiceGeneration := state.cursorServiceGeneration + 1
      cursorBackend := backend
      appliedCursor := none
      cursorSyncPending := false
      cursorPendingService := 0 })

end HostWindowState

/-- What a thread still has to do. -/
inductive CursorWork where
  /-- The section of `schedule_cursor_sync`. -/
  | schedule
  | post (backend service : Nat)
  | shutdown
  deriving DecidableEq, Repr

/-- A `set_cursor` call of a backend. -/
structure CursorCall where
  backend : Nat
  service : Nat
  cursor : SystemCursor
  revision : Nat
  deriving DecidableEq, Repr

/-- Where the cursor task of the platform thread is: inside the native call, or
before its last section. -/
inductive CursorPoint where
  | idle
  | calling (call : CursorCall)
  | finishing (call : CursorCall) (succeeded : Bool)
  deriving DecidableEq, Repr

/-- A window with the cursor tasks of its platform executor, each a backend and a
service, what each thread has left to do, and the calls that have returned or
thrown. -/
structure CursorSystem where
  host : HostWindowState
  queue : List (Nat × Nat) := []
  ui : List CursorWork := []
  platform : List CursorWork := []
  task : CursorPoint := .idle
  calls : List (CursorCall × Bool) := []

namespace CursorSystem

/-- What can happen next: a call enters its section, a thread goes on, the native
call ends, the platform executor takes a task, or the window is shut down. -/
inductive Action where
  | setCursor (cursor : SystemCursor)
  | continueUi
  | setCursorBackend (backend : Option Nat)
  | runTask
  | nativeReturns (succeeded : Bool)
  | continuePlatform
  | shutdown
  deriving DecidableEq, Repr

/-- `HostWindow::shutdown`, as far as the cursor goes. -/
def shutdown (system : CursorSystem) : CursorSystem :=
  if system.host.running then { system with host := system.host.stopLocked } else system

/-- One piece of a thread's work, and what it leaves to do in its place. -/
def runWork (system : CursorSystem) : CursorWork → CursorSystem × List CursorWork
  | .schedule =>
    match system.host.scheduleCursorLocked with
    | (none, host) => ({ system with host }, [])
    | (some (backend, service), host) => ({ system with host }, [.post backend service])
  | .post backend service => ({ system with queue := system.queue ++ [(backend, service)] }, [])
  | .shutdown => (system.shutdown, [])

/-- `HostWindow::set_cursor`. -/
def setCursor (system : CursorSystem) (cursor : SystemCursor) : CursorSystem :=
  match system.host.setCursorLocked cursor with
  | (.ignored, _) => system
  | (.exhausted, _) => { system with ui := [.shutdown] }
  | (.desired, host) => { system with host, ui := [.schedule] }

/-- `HostWindowDriver::set_cursor_backend`. -/
def setCursorBackend (system : CursorSystem) (backend : Option Nat) : CursorSystem :=
  match system.host.setCursorBackendLocked backend with
  | (.ignored, _) => system
  | (.exhausted, _) => { system with platform := [.shutdown] }
  | (.replaced _, host) => { system with host, platform := [.schedule] }

/-- The first section of a cursor task. -/
def runTask (system : CursorSystem) (backend service : Nat) : CursorSystem :=
  match system.host.beginCursorLocked backend service with
  | none => system
  | some (cursor, revision) => { system with task := .calling ⟨backend, service, cursor, revision⟩ }

/-- The last section of a cursor task. -/
def finishTask (system : CursorSystem) (call : CursorCall) (succeeded : Bool) : CursorSystem :=
  let (newer, host) := system.host.finishCursorLocked call.backend call.service call.cursor
    call.revision succeeded
  { system with host, task := .idle, platform := if newer then [.schedule] else [] }

/-- A step of the system. The backend may be replaced from inside a native call. -/
def step (system : CursorSystem) : Action → Option CursorSystem
  | .setCursor cursor => if system.ui.isEmpty then some (system.setCursor cursor) else none
  | .continueUi =>
    match system.ui with
    | [] => none
    | work :: rest =>
      let (next, left) := system.runWork work
      some { next with ui := left ++ rest }
  | .setCursorBackend backend =>
    match system.platform, system.task with
    | [], .idle | [], .calling _ => some (system.setCursorBackend backend)
    | _, _ => none
  | .runTask =>
    match system.queue, system.platform, system.task with
    | (backend, service) :: queue, [], .idle =>
      some ({ system with queue }.runTask backend service)
    | _, _, _ => none
  | .nativeReturns succeeded =>
    match system.platform, system.task with
    | [], .calling call =>
      some { system with
        task := .finishing call succeeded, calls := system.calls ++ [(call, succeeded)] }
    | _, _ => none
  | .continuePlatform =>
    match system.platform, system.task with
    | work :: rest, _ =>
      let (next, left) := system.runWork work
      some { next with platform := left ++ rest }
    | [], .finishing call succeeded => some (system.finishTask call succeeded)
    | [], _ => none
  | .shutdown => some system.shutdown

end CursorSystem

/-- The cursor service from the creation of the window on. -/
def cursorMachine : Machine CursorSystem CursorSystem.Action where
  init system := ∃ id logicalSize physicalWidth physicalHeight devicePixelRatio visible host,
    createHostWindow id logicalSize physicalWidth physicalHeight devicePixelRatio visible =
      .ok host ∧ system = { host }
  step := CursorSystem.step

end Dui
