import Dui.HostWindow
import Dui.TextEditing

/-! The clipboard service of a host window. Every entry holds the dispatch mutex and
is one step here; a platform task is cut around the backend's call, which may
answer, or lose its place, before it returns. -/
namespace Dui
open HostWindowState Transition

def ClipboardStatus.valid : ClipboardStatus → Bool
  | .unknown _ => false
  | _ => true

def ClipboardRequestId.valid (request : ClipboardRequestId) : Bool :=
  request.service ≠ 0 && request.sequence ≠ 0

/-- The condition under which `complete_clipboard_request` accepts an answer. -/
def validCompletion (request : ClipboardRequestId) (operation : ClipboardOperation)
    (status : ClipboardStatus) (text : Option (List UInt8)) : Bool :=
  !(!request.valid || !status.valid ||
    (operation = .readText && (status = .success) && !text.any isValidUtf8) ||
    ((operation = .writeText || status ≠ .success) && text.isSome))

namespace HostWindowState

inductive ClipboardStart where
  | ignored
  | exhausted
  | issued (request : ClipboardRequestId) (backend : Nat)
  deriving DecidableEq, Repr

/-- The section of `read_clipboard_text` and `write_clipboard_text`. -/
def startClipboardLocked (state : HostWindowState) (operation : ClipboardOperation) :
    ClipboardStart × HostWindowState :=
  match state.clipboardBackend with
  | none => (.ignored, state)
  | some backend =>
    if ¬ state.running then (.ignored, state)
    else if state.clipboardNextSequence = maxGeneration then (.exhausted, state)
    else
      let request := ⟨state.clipboardServiceGeneration, state.clipboardNextSequence⟩
      (.issued request backend, { state with
        clipboardNextSequence := state.clipboardNextSequence + 1
        clipboardRequests := state.clipboardRequests ++ [⟨request, operation⟩] })

theorem start_clipboard_cases (state : HostWindowState) (operation : ClipboardOperation) :
    state.startClipboardLocked operation = (.ignored, state) ∨
    state.startClipboardLocked operation = (.exhausted, state) ∨
    ∃ backend, state.clipboardBackend = some backend ∧ state.running = true ∧
      state.startClipboardLocked operation =
        (.issued ⟨state.clipboardServiceGeneration, state.clipboardNextSequence⟩ backend,
          { state with
            clipboardNextSequence := state.clipboardNextSequence + 1
            clipboardRequests := state.clipboardRequests ++ [⟨⟨state.clipboardServiceGeneration,
              state.clipboardNextSequence⟩, operation⟩] }) := by
  unfold startClipboardLocked
  split
  case h_1 => exact .inl rfl
  case h_2 backend backed =>
    split
    case isTrue => exact .inl rfl
    case isFalse running =>
      split
      · exact .inr (.inl rfl)
      · exact .inr (.inr ⟨backend, backed, by simpa using running, rfl⟩)

/-- Removes a request from the pending ones. -/
def eraseClipboardLocked (state : HostWindowState) (request : ClipboardRequestId) :
    HostWindowState :=
  { state with
    clipboardRequests := state.clipboardRequests.filter fun pending => pending.id ≠ request }

/-- The section of a clipboard task: is the request still to be made? -/
def clipboardCurrentLocked (state : HostWindowState) (backend : Nat)
    (request : ClipboardRequestId) : Bool :=
  state.running && (state.clipboardBackend = some backend) &&
    (state.clipboardServiceGeneration = request.service) &&
    state.clipboardRequests.any (·.id = request)

inductive ClipboardAnswer where
  | ignored
  | invalid
  | deliver (operation : ClipboardOperation)
  deriving DecidableEq, Repr

/-- The first section of `complete_clipboard_request`. -/
def completeClipboardLocked (state : HostWindowState) (request : ClipboardRequestId)
    (status : ClipboardStatus) (text : Option (List UInt8)) : ClipboardAnswer :=
  match state.clipboardRequests.find? (·.id = request) with
  | none => .ignored
  | some pending =>
    if ¬ state.running ∨ state.clipboardServiceGeneration ≠ request.service then .ignored
    else if ¬ validCompletion request pending.operation status text then .invalid
    else .deliver pending.operation

/-- An answer is ignored, or belongs to a pending request of a running window. -/
theorem complete_clipboard_cases (state : HostWindowState) (request : ClipboardRequestId)
    (status : ClipboardStatus) (text : Option (List UInt8)) :
    (state.completeClipboardLocked request status text = .ignored ∧
      ∀ pending ∈ state.clipboardRequests, pending.id = request →
        state.running = false ∨ state.clipboardServiceGeneration ≠ request.service) ∨
    ∃ pending ∈ state.clipboardRequests, pending.id = request ∧ state.running = true ∧
      state.completeClipboardLocked request status text =
        if validCompletion request pending.operation status text then .deliver pending.operation
        else .invalid := by
  unfold completeClipboardLocked
  split
  case h_1 absent =>
    refine .inl ⟨rfl, fun pending member same => ?_⟩
    have other := List.find?_eq_none.mp absent pending member
    simp [same] at other
  case h_2 pending found =>
    have member := List.mem_of_find?_eq_some found
    have same : pending.id = request := by simpa using List.find?_some found
    split
    case isTrue stale => exact .inl ⟨rfl, fun _ _ _ => by simpa using stale⟩
    case isFalse current =>
      refine .inr ⟨pending, member, same, by simpa using (not_or.mp current).1, ?_⟩
      split <;> simp_all

inductive SetClipboardBackendOutcome where
  | ignored
  | exhausted
  | replaced (service : Nat) (canceled : List PendingClipboardRequest)
  deriving DecidableEq, Repr

/-- The section of `HostWindowDriver::set_clipboard_backend`. -/
def setClipboardBackendLocked (state : HostWindowState) (backend : Option Nat) :
    SetClipboardBackendOutcome × HostWindowState :=
  if ¬ state.running then (.ignored, state)
  else if state.clipboardServiceGeneration = maxGeneration then (.exhausted, state)
  else
    (.replaced (state.clipboardServiceGeneration + 1) state.clipboardRequests, { state with
      clipboardServiceGeneration := state.clipboardServiceGeneration + 1
      clipboardBackend := backend
      clipboardRequests := [] })

theorem set_clipboard_backend_cases (state : HostWindowState) (backend : Option Nat) :
    (state.running = false ∧ state.setClipboardBackendLocked backend = (.ignored, state)) ∨
    (state.running = true ∧ state.setClipboardBackendLocked backend = (.exhausted, state)) ∨
    (state.running = true ∧ state.setClipboardBackendLocked backend =
      (.replaced (state.clipboardServiceGeneration + 1) state.clipboardRequests, { state with
        clipboardServiceGeneration := state.clipboardServiceGeneration + 1
        clipboardBackend := backend
        clipboardRequests := [] })) := by
  unfold setClipboardBackendLocked
  split
  case isTrue stopped => exact .inl ⟨by simpa using stopped, rfl⟩
  case isFalse running =>
    have running : state.running = true := by simpa using running
    split
    · exact .inr (.inl ⟨running, rfl⟩)
    · exact .inr (.inr ⟨running, rfl⟩)

end HostWindowState

/-- What a clipboard task asks its backend: to read, or to write a text. -/
structure ClipboardTask where
  backend : Nat
  request : ClipboardRequestId
  text : Option (List UInt8) := none
  deriving DecidableEq, Repr

namespace Host

/-- The UI task of an answer that has no other parts than delegate calls. -/
def canceledTask (generation : Nat) (window : WindowId)
    (canceled : List PendingClipboardRequest) : List UiStep :=
  canceled.map fun pending =>
    .invoke generation true
      (.clipboardCompleted ⟨window, pending.id, pending.operation, .canceled, none⟩)

/-- `complete_clipboard_request`, called on the platform thread or on another. -/
def completeClipboard (host : Host) (request : ClipboardRequestId) (status : ClipboardStatus)
    (text : Option (List UInt8)) (onPlatform : Bool) : Host :=
  match host.state.completeClipboardLocked request status text with
  | .ignored => host
  | .invalid =>
    host.reportError .invalidPlatformEvent (.invalidArgument "Invalid clipboard completion")
  | .deliver operation =>
    let (posted, host) := host.tryPostUi
      [.invoke host.state.delegateGeneration true
        (.clipboardCompleted ⟨host.state.id, request, operation, status, text⟩)]
    if posted then { host with state := host.state.eraseClipboardLocked request }
    else host.reportPost.shutdown onPlatform

/-- `HostWindowDriver::set_clipboard_backend`. -/
def setClipboardBackend (host : Host) (backend : Option Nat) : Host :=
  match host.state.setClipboardBackendLocked backend with
  | (.ignored, _) => host
  | (.exhausted, _) =>
    (host.reportError .clipboard
      (.overflowError "Clipboard service generation exhausted")).shutdown true
  | (.replaced _ canceled, state) =>
    if canceled.isEmpty then { host with state }
    else
      let (posted, host) := { host with state }.tryPostUi
        (canceledTask state.delegateGeneration state.id canceled)
      if posted then host
      else
        let restored := { host with state := { host.state with clipboardRequests := canceled } }
        restored.reportPost.shutdown true

end Host

/-- A window with the clipboard tasks of its platform executor, the backend call
that has not returned, and the requests the application was given. -/
structure ClipboardSystem where
  host : Host
  tasks : List ClipboardTask := []
  calling : Option ClipboardTask := none
  issued : List ClipboardRequestId := []

namespace ClipboardSystem

/-- What can happen next: the application or the platform calls, a platform task
starts, a backend call ends, or something else happens to the window. -/
inductive Action where
  | readClipboardText (onPlatform : Bool)
  | writeClipboardText (text : List UInt8) (onPlatform : Bool)
  | completeClipboard (request : ClipboardRequestId) (status : ClipboardStatus)
      (text : Option (List UInt8)) (onPlatform : Bool)
  | setClipboardBackend (backend : Option Nat)
  | runTask
  | callReturns (throws : Bool)
  | bindDelegate (delegate : Nat) (onPlatform : Bool)
  | resetBinding (generation : Nat)
  | expireDelegate
  | shutdown (onPlatform : Bool)
  | runUi
  | completeShutdown

/-- `read_clipboard_text` and `write_clipboard_text`; a refused post takes the
request back before the window is shut down. -/
def start (system : ClipboardSystem) (operation : ClipboardOperation)
    (text : Option (List UInt8)) (onPlatform : Bool) : ClipboardSystem :=
  match system.host.state.startClipboardLocked operation with
  | (.ignored, _) => system
  | (.exhausted, _) =>
    { system with host := (system.host.reportError .clipboard
        (.overflowError "Clipboard request sequence exhausted")).shutdown onPlatform }
  | (.issued request backend, state) =>
    let posts := system.host.posts.tail
    if system.host.postSucceeds then
      { system with
        host := { system.host with state, posts }
        tasks := system.tasks ++ [⟨backend, request, text⟩]
        issued := system.issued ++ [request] }
    else
      let host := { system.host with state := state.eraseClipboardLocked request, posts }
      { system with host := host.reportPost.shutdown onPlatform }

/-- A platform task up to the backend's call. -/
def runTask (system : ClipboardSystem) : Option ClipboardSystem :=
  match system.tasks, system.calling with
  | task :: tasks, none =>
    if system.host.state.clipboardCurrentLocked task.backend task.request then
      some { system with tasks, calling := some task }
    else some { system with tasks }
  | _, _ => none

/-- The backend's call ends; one that throws fails its request. -/
def callReturns (system : ClipboardSystem) (throws : Bool) : Option ClipboardSystem :=
  match system.calling with
  | none => none
  | some task =>
    if throws then
      let reported := system.host.reportError .clipboard (.runtimeError "clipboard backend")
      some { system with
        calling := none, host := reported.completeClipboard task.request .failed none true }
    else some { system with calling := none }

/-- A call of the host window itself. -/
def onHost (system : ClipboardSystem) (call : Host.Call) : Option ClipboardSystem :=
  (system.host.perform call).map fun host => { system with host }

/-- An action under given outcomes of its posts. -/
def perform (system : ClipboardSystem) : Action → Option ClipboardSystem
  | .readClipboardText onPlatform => some (system.start .readText none onPlatform)
  | .writeClipboardText text onPlatform =>
    some (if isValidUtf8 text then system.start .writeText (some text) onPlatform else system)
  | .completeClipboard request status text onPlatform =>
    some { system with host := system.host.completeClipboard request status text onPlatform }
  | .setClipboardBackend backend =>
    some { system with host := system.host.setClipboardBackend backend }
  | .runTask => system.runTask
  | .callReturns throws => system.callReturns throws
  | .bindDelegate delegate onPlatform => system.onHost (.bindDelegate delegate onPlatform)
  | .resetBinding generation => system.onHost (.resetBinding generation)
  | .expireDelegate => system.onHost .expireDelegate
  | .shutdown onPlatform => system.onHost (.shutdown onPlatform)
  | .runUi => system.onHost .runUi
  | .completeShutdown => system.onHost (.runPlatform false)

end ClipboardSystem

/-- The clipboard from the creation of the window on. Each step names the outcomes of
its posts. -/
def clipboardMachine : Machine ClipboardSystem (List Bool × ClipboardSystem.Action) where
  init system := ∃ host, hostMachine.init host ∧ system = { host }
  step system action :=
    ClipboardSystem.perform { system with host := { system.host with posts := action.1 } } action.2

end Dui
