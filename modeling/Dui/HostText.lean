import Dui.HostState
import Dui.Transition

/-! Text input across the two executors. The application edits the session on the
UI side, the native side edits its own copy, and `synchronize_text_input` carries
values from one to the other; every locked section, every post and every call of
the backend is one step. -/
namespace Dui
open Transition

/-- A value sent by the native side, on its way to the UI. -/
structure NativeEdit where
  session : Nat
  service : Nat
  callbackGeneration : Nat
  value : TextEditingValue
  deriving DecidableEq, Repr

namespace HostWindowState

inductive SetTextInputBackendOutcome where
  | stopped
  | exhausted
  | installed (service : Nat)
  deriving DecidableEq, Repr

/-- The section of `HostWindowDriver::set_text_input_backend`. -/
def setTextInputBackendLocked (state : HostWindowState) (backend : Option Nat) :
    SetTextInputBackendOutcome × HostWindowState :=
  if ¬ state.running then (.stopped, state)
  else if state.text.serviceGeneration = maxGeneration then (.exhausted, state)
  else
    (.installed (state.text.serviceGeneration + 1),
      { state with
        text := { state.text with
          serviceGeneration := state.text.serviceGeneration + 1, backend } })

/-- `HostTextInputProxy::start_text_input` up to its post. -/
def startTextInputLocked (state : HostWindowState) (client : Bool)
    (configuration : TextInputConfiguration) (initialValue : TextEditingValue) :
    Except Failure (Nat × HostWindowState) :=
  if ¬ initialValue.valid ∨ ¬ client then
    .error (.invalidArgument "Invalid host text input session")
  else if ¬ state.running then
    .error (.logicError "Cannot start text input on a stopped host window")
  else if state.text.nextSession = maxGeneration then
    .error (.overflowError "Host text input session generation exhausted")
  else
    .ok (state.text.nextSession,
      { state with
        text := { state.text with
          nextSession := state.text.nextSession + 1
          session := some
            { id := state.text.nextSession, client, configuration, value := initialValue } } })

/-- The session a call of the proxy is for, while it is live. -/
def liveSession (state : HostWindowState) (session : Nat) : Option HostTextSession :=
  if ¬ state.running then none else state.text.session.filter (·.id = session)

/-- `HostTextInputProxy::update_editing_state` up to its post; `none` when the
session is not live. -/
def updateEditingStateLocked (state : HostWindowState) (session : Nat) (value : TextEditingValue) :
    Except Failure (Option HostWindowState) :=
  match state.liveSession session with
  | none => .ok none
  | some live =>
    if ¬ value.valid then .error (.invalidArgument "Invalid host text editing value")
    else if live.valueRevision = maxGeneration then
      .error (.overflowError "Host text editing revision exhausted")
    else
      let live := { live with value, valueRevision := live.valueRevision + 1 }
      .ok (some { state with text := { state.text with session := some live } })

/-- `HostTextInputProxy::set_editable_rect` up to its post. -/
def setEditableRectLocked (state : HostWindowState) (session : Nat) (rect : Rect) :
    Except Failure (Option HostWindowState) :=
  match state.liveSession session with
  | none => .ok none
  | some live =>
    if rect.size.width < 0 ∨ rect.size.height < 0 then
      .error (.invalidArgument "Invalid host editable rectangle")
    else if live.rectRevision = maxGeneration then
      .error (.overflowError "Host editable rectangle revision exhausted")
    else
      let live := { live with editableRect := some rect, rectRevision := live.rectRevision + 1 }
      .ok (some { state with text := { state.text with session := some live } })

/-- The first section of `schedule_text_sync`: is there a task to post? -/
def scheduleTextSyncLocked (state : HostWindowState) : Bool × HostWindowState :=
  if ¬ state.running ∨ state.text.syncPending then (false, state)
  else (true, { state with text := { state.text with syncPending := true } })

inductive NativeEditOutcome where
  | stale
  | clientGone
  | exhausted
  | accepted
  deriving DecidableEq, Repr

/-- The section of the task `ForwardingTextInputClient::update_editing_value` posts. -/
def updateEditingValueLocked (state : HostWindowState) (edit : NativeEdit) :
    NativeEditOutcome × HostWindowState :=
  match state.liveSession edit.session with
  | none => (.stale, state)
  | some live =>
    if state.text.serviceGeneration ≠ edit.service ∨
        state.text.nativeCallbackGeneration ≠ edit.callbackGeneration then (.stale, state)
    else if ¬ live.client then
      (.clientGone, { state with text := { state.text with session := none } })
    else if live.valueRevision = maxGeneration then (.exhausted, state)
    else
      (.accepted, { state with
        text := { state.text with
          session := some
            { live with value := edit.value, valueRevision := live.valueRevision + 1 }
          nativeValueRevision := live.valueRevision + 1 } })

/-- The native session belongs to the live session, its backend and its service. -/
def nativeIsCurrent (text : TextInputState) : Bool :=
  (text.nativeSession ≠ 0) && (text.nativeBackend = text.backend) &&
    (text.nativeServiceGeneration = text.serviceGeneration) &&
    text.session.any fun session => text.nativePublicSession = session.id

/-- The first section of `synchronize_text_input`: the native session to stop. -/
def syncStopLocked (state : HostWindowState) : Option Nat × HostWindowState :=
  let text := { state.text with
    syncPending := false
    session := state.text.session.filter (·.client) }
  if text.nativeSession ≠ 0 ∧ ¬ nativeIsCurrent text then
    (some text.nativeSession,
      { state with
        text := { text with
          nativeBackend := none, nativeSession := 0, nativePublicSession := 0
          nativeCallbackGeneration := 0, nativeServiceGeneration := 0
          nativeValueRevision := 0, nativeRectRevision := 0 } })
  else (none, { state with text })

/-- What the second section of `synchronize_text_input` decides to do. -/
inductive SyncPlan where
  | nothing
  | start (backend : Nat) (session : HostTextSession) (service callbackGeneration : Nat)
  | update (native : Nat) (session : HostTextSession) (service : Nat)
      (updateValue updateRect : Bool)
  deriving DecidableEq, Repr

/-- The second section of `synchronize_text_input`. -/
def syncPlanLocked (state : HostWindowState) : Except Failure (SyncPlan × HostWindowState) :=
  match state.text.session, state.text.backend with
  | some session, some backend =>
    if ¬ state.running then .ok (.nothing, state)
    else if state.text.nativeSession = 0 then
      if state.text.nextCallbackGeneration = maxGeneration then
        .error (.overflowError "Host native text callback generation exhausted")
      else
        .ok (.start backend session state.text.serviceGeneration state.text.nextCallbackGeneration,
          { state with
            text := { state.text with
              nextCallbackGeneration := state.text.nextCallbackGeneration + 1 } })
    else
      .ok (.update state.text.nativeSession session state.text.serviceGeneration
        (state.text.nativeValueRevision < session.valueRevision)
        (session.editableRect.isSome && state.text.nativeRectRevision < session.rectRevision), state)
  | _, _ => .ok (.nothing, state)

/-- The section in which a started native session is adopted. -/
def syncAcceptLocked (state : HostWindowState) (backend : Nat) (session : HostTextSession)
    (service callbackGeneration started : Nat) : Bool × HostWindowState :=
  if state.liveSession session.id |>.isNone then (false, state)
  else if state.text.serviceGeneration ≠ service ∨ state.text.backend ≠ some backend ∨
      state.text.nativeSession ≠ 0 then (false, state)
  else
    (true, { state with
      text := { state.text with
        nativeBackend := some backend
        nativeSession := started
        nativePublicSession := session.id
        nativeServiceGeneration := service
        nativeCallbackGeneration := callbackGeneration
        nativeValueRevision := session.valueRevision
        nativeRectRevision := 0 } })

/-- The section after a successful `update_editing_state` of the backend. -/
def syncValueDoneLocked (state : HostWindowState) (native : Nat) (session : HostTextSession)
    (service : Nat) : HostWindowState :=
  if state.text.nativeSession = native ∧ state.text.nativeServiceGeneration = service then
    { state with text := { state.text with nativeValueRevision := session.valueRevision } }
  else state

/-- The section after a successful `set_editable_rect` of the backend. -/
def syncRectDoneLocked (state : HostWindowState) (native : Nat) (session : HostTextSession)
    (service : Nat) : HostWindowState :=
  if state.text.nativeSession = native ∧ state.text.nativeServiceGeneration = service then
    { state with text := { state.text with nativeRectRevision := session.rectRevision } }
  else state

end HostWindowState

/-- What the backend holds: its session, the client it reports to and its value. -/
structure NativeText where
  id : Nat
  session : Nat
  service : Nat
  callbackGeneration : Nat
  value : TextEditingValue
  deriving DecidableEq, Repr

/-- Where the UI thread is in `schedule_text_sync`. -/
inductive SchedulePoint where
  | idle
  | scheduling
  | posting
  deriving DecidableEq, Repr

/-- Where the platform thread is in `synchronize_text_input`. -/
inductive SyncPoint where
  | idle
  | stopping (native : Nat)
  | planning
  | starting (backend : Nat) (session : HostTextSession) (service callbackGeneration : Nat)
  | accepting (backend : Nat) (session : HostTextSession)
      (service callbackGeneration started : Nat)
  | rejecting (started : Nat)
  | scheduling
  | posting
  | updating (native : Nat) (session : HostTextSession) (service : Nat) (updateRect : Bool)
  | marking (native : Nat) (session : HostTextSession) (service : Nat) (updateRect : Bool)
  | rectUpdating (native : Nat) (session : HostTextSession) (service : Nat)
  | rectMarking (native : Nat) (session : HostTextSession) (service : Nat)
  deriving DecidableEq, Repr

/-- A window with the text tasks of its executors, where each thread is, and what
the native side holds. -/
structure TextSystem where
  host : HostWindowState
  uiQueue : List NativeEdit := []
  ui : SchedulePoint := .idle
  queuedSyncs : Nat := 0
  platform : SyncPoint := .idle
  native : Option NativeText := none

namespace TextSystem

/-- What can happen next: the application calls the proxy, the native side edits,
a thread goes on, or an executor takes a task. -/
inductive Action where
  | updateEditingState (session : Nat) (value : TextEditingValue)
  | setEditableRect (session : Nat) (rect : Rect)
  | nativeEdit (value : TextEditingValue)
  | runEdit
  | continueUi
  | runSync
  | nativeStarts (started : Nat)
  | continuePlatform

/-- A call of the proxy; a refused one changes nothing. -/
def proxyCall (system : TextSystem) (outcome : Except Failure (Option HostWindowState)) :
    TextSystem :=
  match outcome with
  | .ok (some host) => { system with host, ui := .scheduling }
  | _ => system

/-- The task a native edit posted. -/
def runEdit (system : TextSystem) (edit : NativeEdit) : TextSystem :=
  match system.host.updateEditingValueLocked edit with
  | (.clientGone, host) => { system with host, ui := .scheduling }
  | (.exhausted, host) => { system with host := host.stopLocked }
  | (_, host) => { system with host }

/-- `stop_text_input` of the backend. -/
def nativeStop (system : TextSystem) (session : Nat) : TextSystem :=
  { system with native := system.native.filter (·.id ≠ session) }

/-- `update_editing_state` of the backend. -/
def nativeUpdate (system : TextSystem) (session : Nat) (value : TextEditingValue) : TextSystem :=
  { system with
    native := system.native.map fun native =>
      if native.id = session then { native with value } else native }

/-- Where a plan takes the platform thread. -/
def pointOf : HostWindowState.SyncPlan → SyncPoint
  | .nothing => .idle
  | .start backend session service callbackGeneration =>
    .starting backend session service callbackGeneration
  | .update native session service true updateRect => .updating native session service updateRect
  | .update native session service false true => .rectUpdating native session service
  | .update _ _ _ false false => .idle

/-- The point after the value has been handed over. -/
def afterValue (native : Nat) (session : HostTextSession) (service : Nat) (updateRect : Bool) :
    SyncPoint :=
  if updateRect then .rectUpdating native session service else .idle

/-- `synchronize_text_input` from where it is to its next point. -/
def continuePlatform (system : TextSystem) : Option TextSystem :=
  match system.platform with
  | .idle | .starting .. => none
  | .stopping native => some { system.nativeStop native with platform := .planning }
  | .planning =>
    match system.host.syncPlanLocked with
    | .error _ => some { system with platform := .idle }
    | .ok (plan, host) => some { system with host, platform := pointOf plan }
  | .accepting backend session service callbackGeneration started =>
    match system.host.syncAcceptLocked backend session service callbackGeneration started with
    | (true, host) => some { system with host, platform := .scheduling }
    | (false, host) => some { system with host, platform := .rejecting started }
  | .rejecting started => some { system.nativeStop started with platform := .idle }
  | .scheduling =>
    match system.host.scheduleTextSyncLocked with
    | (true, host) => some { system with host, platform := .posting }
    | (false, host) => some { system with host, platform := .idle }
  | .posting => some { system with queuedSyncs := system.queuedSyncs + 1, platform := .idle }
  | .updating native session service updateRect =>
    some { system.nativeUpdate native session.value with
      platform := .marking native session service updateRect }
  | .marking native session service updateRect =>
    some { system with
      host := system.host.syncValueDoneLocked native session service
      platform := afterValue native session service updateRect }
  | .rectUpdating native session service =>
    some { system with platform := .rectMarking native session service }
  | .rectMarking native session service =>
    some { system with host := system.host.syncRectDoneLocked native session service
                       platform := .idle }

/-- A step of the system. The native side may edit whenever it has a session, also
while it is being started; the host posts the edit to the UI. -/
def step (system : TextSystem) : Action → Option TextSystem
  | .updateEditingState session value =>
    if system.ui = .idle then
      some (system.proxyCall (system.host.updateEditingStateLocked session value)) else none
  | .setEditableRect session rect =>
    if system.ui = .idle then
      some (system.proxyCall (system.host.setEditableRectLocked session rect)) else none
  | .nativeEdit value =>
    match system.native with
    | none => none
    | some native =>
      if value.valid then
        some { system with
          native := some { native with value }
          uiQueue := system.uiQueue ++
            [⟨native.session, native.service, native.callbackGeneration, value⟩] }
      else none
  | .runEdit =>
    match system.uiQueue with
    | [] => none
    | edit :: rest =>
      if system.ui = .idle then some ({ system with uiQueue := rest }.runEdit edit) else none
  | .continueUi =>
    match system.ui with
    | .idle => none
    | .scheduling =>
      match system.host.scheduleTextSyncLocked with
      | (true, host) => some { system with host, ui := .posting }
      | (false, host) => some { system with host, ui := .idle }
    | .posting => some { system with queuedSyncs := system.queuedSyncs + 1, ui := .idle }
  | .runSync =>
    match system.queuedSyncs with
    | 0 => none
    | queuedSyncs + 1 =>
      if system.platform = .idle then
        match system.host.syncStopLocked with
        | (some native, host) => some { system with host, queuedSyncs, platform := .stopping native }
        | (none, host) => some { system with host, queuedSyncs, platform := .planning }
      else none
  | .nativeStarts started =>
    match system.platform with
    | .starting backend session service callbackGeneration =>
      if started ≠ 0 then
        some { system with
          native := some ⟨started, session.id, service, callbackGeneration, session.value⟩
          platform := .accepting backend session service callbackGeneration started }
      else none
    | _ => none
  | .continuePlatform => system.continuePlatform

/-- Nothing is queued and no thread is inside an operation. -/
def quiet (system : TextSystem) : Bool :=
  system.uiQueue.isEmpty && (system.ui = .idle) && (system.queuedSyncs = 0) &&
    (system.platform = .idle)

end TextSystem

/-- Text input from the start of a session on: the window has been given a backend,
the application has started a session and the synchronization is on its way. -/
def textMachine : Machine TextSystem TextSystem.Action where
  init system := ∃ id logicalSize physicalWidth physicalHeight devicePixelRatio visible host
      backend configuration initialValue session started,
    createHostWindow id logicalSize physicalWidth physicalHeight devicePixelRatio visible =
      .ok host ∧
    (host.setTextInputBackendLocked (some backend)).2.startTextInputLocked true configuration
      initialValue = .ok (session, started) ∧
    system = { host := started.scheduleTextSyncLocked.2, queuedSyncs := 1 }
  step := TextSystem.step

end Dui
