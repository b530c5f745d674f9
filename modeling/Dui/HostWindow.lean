import Dui.HostState
import Dui.Transition

/-! A host window with its two executors, each operation taken as one step.
Posts may fail one by one. A UI task is cut at its delegate calls, so that other
operations, also those made from inside a callback, may come between them. -/
namespace Dui
open HostWindowState

/-- The parts of a UI task: delegate calls and the sections around them. -/
inductive UiStep where
  /-- `invoke_delegate` for one binding. -/
  | invoke (generation : Nat) (requireRunning : Bool) (event : DelegateEvent)
  /-- The delivery of a frame task. -/
  | frameRequested (generation : Nat) (request : FrameRequest)
  /-- The end of a frame task. -/
  | frameDelivered
  /-- The start of the shutdown task: semantics delivery is forgotten. -/
  | dropSemantics
  /-- The end of the shutdown task. -/
  | finishShutdown (generation : Nat)
  deriving DecidableEq

inductive PlatformTask where
  | frameControl (control : FrameControl)
  | completeShutdown
  deriving DecidableEq

/-- A window, the queues of its executors, what its delegates were told (under
the generation of the binding), what its error handler was told, and the
outcomes of the posts to come; posts beyond those succeed. -/
structure Host where
  state : HostWindowState
  uiQueue : List UiStep := []
  platformQueue : List PlatformTask := []
  delivered : List (Nat × DelegateEvent) := []
  reported : List HostError := []
  posts : List Bool := []

namespace Host

def reportError (host : Host) (source : HostErrorSource) (failure : Failure) : Host :=
  { host with reported := host.reported ++ [⟨source, failure⟩] }

/-- Whether the next post succeeds. -/
def postSucceeds (host : Host) : Bool := host.posts.headD true

/-- `try_post_task` on the UI runner. -/
def tryPostUi (host : Host) (task : List UiStep) : Bool × Host :=
  (host.postSucceeds,
    { host with
      posts := host.posts.tail
      uiQueue := if host.postSucceeds then host.uiQueue ++ task else host.uiQueue })

/-- What a failed post reports: an expired runner. -/
def reportPost (host : Host) : Host :=
  host.reportError .taskPost (.runtimeError "Host task runner expired")

/-- `post_task` on the UI runner. -/
def postUi (host : Host) (task : List UiStep) : Bool × Host :=
  let (posted, host) := host.tryPostUi task
  (posted, if posted then host else host.reportPost)

theorem try_post_ui_taken (host : Host) (task : List UiStep)
    (posted : host.postSucceeds = true) :
    host.tryPostUi task =
      (true, { host with posts := host.posts.tail, uiQueue := host.uiQueue ++ task }) := by
  simp [tryPostUi, posted]

theorem try_post_ui_refused (host : Host) (task : List UiStep)
    (posted : host.postSucceeds = false) :
    host.tryPostUi task = (false, { host with posts := host.posts.tail }) := by
  simp [tryPostUi, posted]

theorem post_ui_taken (host : Host) (task : List UiStep) (posted : host.postSucceeds = true) :
    host.postUi task =
      (true, { host with posts := host.posts.tail, uiQueue := host.uiQueue ++ task }) := by
  simp [postUi, tryPostUi, posted]

theorem post_ui_refused (host : Host) (task : List UiStep) (posted : host.postSucceeds = false) :
    host.postUi task = (false, reportPost { host with posts := host.posts.tail }) := by
  simp [postUi, tryPostUi, posted]

/-- `post_task` on the platform runner. -/
def postPlatform (host : Host) (task : PlatformTask) : Bool × Host :=
  if host.postSucceeds then
    (true, { host with posts := host.posts.tail, platformQueue := host.platformQueue ++ [task] })
  else (false, { host with posts := host.posts.tail }.reportPost)

/-- `post_frame_control`. -/
def postFrameControl (host : Host) (control : FrameControl) : Bool × Host :=
  if ¬ control.cancel ∧ control.generation.isNone then (true, host)
  else host.postPlatform (.frameControl control)

/-- `frame_generation_exhausted`. -/
def frameGenerationExhausted (host : Host) : Bool × Host :=
  let (exhausted, state) := host.state.frameGenerationExhaustedLocked
  let host := { host with state }
  (exhausted,
    if exhausted then
      host.reportError .invalidPlatformEvent (.overflowError "Host frame generation exhausted")
    else host)

/-- `complete_platform_shutdown`. -/
def completePlatformShutdown (host : Host) : Host :=
  if host.state.platformShutdownComplete then host
  else
    { host with
      state := { host.state with
        platformShutdownPending := false
        platformShutdownComplete := true
        accessibility := { host.state.accessibility with adapter := none }
        text := { host.state.text with backend := none, nativeBackend := none, nativeSession := 0 }
        clipboardBackend := none
        cursorBackend := none } }

/-- `schedule_platform_shutdown`, called on the platform thread or on another. -/
def schedulePlatformShutdown (host : Host) (onPlatform : Bool) : Host :=
  if host.state.platformShutdownComplete ∨ host.state.platformShutdownPending then host
  else
    let host := { host with state := { host.state with platformShutdownPending := true } }
    if onPlatform then host.completePlatformShutdown
    else
      let (posted, host) := host.postPlatform .completeShutdown
      if posted then host
      else { host with state := { host.state with platformShutdownPending := false } }

/-- The section that ends a shutdown on the UI side: the delegate is let go. -/
def releaseDelegateLocked (state : HostWindowState) (generation : Nat) : HostWindowState :=
  let state := { state with deliverQueuedEvents := false, shutdownUiPending := false }
  if state.delegateGeneration = generation then
    { state with
      delegate := none
      delegateGeneration := if state.delegateGeneration ≠ maxGeneration then
        state.delegateGeneration + 1 else state.delegateGeneration }
  else state

/-- The calls that close the given pointer streams. -/
def cancelSteps (generation : Nat) (requireRunning : Bool) (pointers : List PointerId) :
    List UiStep :=
  pointers.map fun pointer =>
    .invoke generation requireRunning (.pointerEvent ⟨pointer, .cancel, some 0, some 0⟩)

/-- The UI task of a shutdown. -/
def shutdownTask (generation : Nat) (requests : List PendingClipboardRequest)
    (pointers : List PointerId) : List UiStep :=
  .dropSemantics ::
    (requests.map fun request => .invoke generation false (.clipboardCanceled request)) ++
    cancelSteps generation false pointers ++
    [.invoke generation false .windowShuttingDown, .finishShutdown generation]

/-- `HostWindow::shutdown`. -/
def shutdown (host : Host) (onPlatform : Bool) : Host :=
  if ¬ host.state.running then
    if ¬ host.state.shutdownUiPending ∧ ¬ host.state.platformShutdownComplete then
      host.schedulePlatformShutdown onPlatform
    else host
  else
    let requests := host.state.clipboardRequests
    let generation := host.state.delegateGeneration
    let (pointers, state) := host.state.stopLocked.takeActivePointersLocked
    let (posted, host) := { host with state }.postUi (shutdownTask generation requests pointers)
    if posted then host
    else
      { host with state := releaseDelegateLocked host.state generation }.schedulePlatformShutdown
        onPlatform

/-- The UI task that introduces a window to its new delegate. -/
def createdTask (generation : Nat) (metrics : WindowMetrics) (visible : Bool) : List UiStep :=
  .invoke generation true (.windowCreated metrics) ::
    if visible then [.invoke generation true (.visibilityChanged true)] else []

/-- `HostWindow::bind_delegate`; a call that throws changes nothing. -/
def bindDelegate (host : Host) (delegate : Nat) (onPlatform : Bool) : Except Failure Nat × Host :=
  if ¬ host.state.running then
    (.error (.logicError "Cannot bind a delegate to a stopped HostWindow"), host)
  else if host.state.delegateGeneration = maxGeneration then
    (.error (.overflowError "Host delegate generation exhausted"), host)
  else
    let generation := host.state.delegateGeneration + 1
    let state := { host.state with
      delegateGeneration := generation, delegate := some delegate, activePointers := [] }
    let (posted, host) := { host with state }.postUi
      (createdTask generation state.metrics state.visible)
    if posted then (.ok generation, host)
    else (.ok 0, host.shutdown onPlatform)

/-- `DelegateBinding::reset` of the binding with this generation. -/
def resetBinding (host : Host) (generation : Nat) : Host :=
  if generation ≠ 0 ∧ host.state.delegateGeneration = generation then
    { host with
      state := { host.state with
        delegate := none
        activePointers := []
        delegateGeneration := if host.state.delegateGeneration ≠ maxGeneration then
          host.state.delegateGeneration + 1 else host.state.delegateGeneration } }
  else host

/-- `HostWindow::request_frame`. -/
def requestFrame (host : Host) (onPlatform : Bool) : Bool × Host :=
  match host.state.requestFrameLocked with
  | none => (false, host)
  | some (generation, state) =>
    let (exhausted, host) := { host with state }.frameGenerationExhausted
    if exhausted then (false, host.shutdown onPlatform)
    else
      let (posted, host) := host.postFrameControl ⟨false, generation⟩
      if posted then (true, host) else (false, host.shutdown onPlatform)

/-- The end of a driver call that has posted its delegate task: frame control,
then the exhaustion check. -/
def settleFrame (host : Host) (control : FrameControl) (onPlatform : Bool) : Host :=
  let (posted, host) := host.postFrameControl control
  if ¬ posted then host.shutdown onPlatform
  else
    let (exhausted, host) := host.frameGenerationExhausted
    if exhausted then host.shutdown onPlatform else host

/-- `HostWindowDriver::set_metrics`. -/
def setMetrics (host : Host) (logicalSize : Size) (physicalWidth physicalHeight : Nat)
    (devicePixelRatio : ℚ) : Host :=
  match host.state.setMetricsLocked logicalSize physicalWidth physicalHeight devicePixelRatio with
  | (.unchanged, _) => host
  | (.invalid, _) =>
    host.reportError .invalidPlatformEvent (.invalidArgument "Invalid host window metrics")
  | (.changed control, state) =>
    let (posted, host) := { host with state }.postUi
      [.invoke state.delegateGeneration true (.metricsChanged state.metrics)]
    if ¬ posted then host.shutdown true else host.settleFrame control true

/-- The section that puts streams back when their cancellation could not be posted. -/
def restorePointersLocked (state : HostWindowState) (generation : Nat)
    (pointers : List PointerId) : HostWindowState :=
  if state.running ∧ state.delegateGeneration = generation then
    { state with activePointers := pointers ∪ state.activePointers }
  else state

/-- The UI task of a visibility change: open streams end first. -/
def visibilityTask (generation : Nat) (visible focusLost : Bool) (pointers : List PointerId) :
    List UiStep :=
  cancelSteps generation true pointers ++
    ((if focusLost then [.invoke generation true (.focusChanged false)] else []) ++
      [.invoke generation true (.visibilityChanged visible)])

/-- `HostWindowDriver::set_visible`. -/
def setVisible (host : Host) (visible : Bool) : Host :=
  match host.state.setVisibleLocked visible with
  | none => host
  | some (outcome, state) =>
    let generation := state.delegateGeneration
    let (posted, host) := { host with state }.tryPostUi
      (visibilityTask generation visible outcome.focusLost outcome.pointers)
    if ¬ posted then
      let host := { host with
        state := restorePointersLocked host.state generation outcome.pointers }
      host.reportPost.shutdown true
    else host.settleFrame outcome.control true

/-- The UI task of a focus change. -/
def focusTask (generation : Nat) (focused : Bool) (pointers : List PointerId) : List UiStep :=
  cancelSteps generation true pointers ++ [.invoke generation true (.focusChanged focused)]

/-- `HostWindowDriver::set_focused`. -/
def setFocused (host : Host) (focused : Bool) : Host :=
  match host.state.setFocusedLocked focused with
  | (.unchanged, _) => host
  | (.invalid, _) =>
    host.reportError .invalidPlatformEvent (.logicError "Hidden host window cannot receive focus")
  | (.changed pointers, state) =>
    let generation := state.delegateGeneration
    let (posted, host) := { host with state }.tryPostUi (focusTask generation focused pointers)
    if ¬ posted then
      let host := { host with state := restorePointersLocked host.state generation pointers }
      host.reportPost.shutdown true
    else host

/-- `HostWindowDriver::frame_pulse`. -/
def framePulse (host : Host) (timestamp : Int) (generation : Nat) : Host :=
  match host.state.framePulseLocked timestamp generation with
  | (.ignored, _) => host
  | (.invalidTimestamp, _) =>
    host.reportError .invalidPlatformEvent (.invalidArgument "Non-monotonic frame timestamp")
  | (.exhausted, state) =>
    ({ host with state }.reportError .invalidPlatformEvent
      (.overflowError "Host frame sequence exhausted")).shutdown true
  | (.accepted request, state) =>
    let (posted, host) := { host with state }.postUi
      [.frameRequested state.delegateGeneration request, .frameDelivered]
    if posted then host else host.shutdown true

/-- What `send_pointer` decides about an event. -/
inductive SendPointerOutcome where
  | ignored
  | invalid
  | deliver
  deriving DecidableEq, Repr

/-- The switch of `send_pointer` over the phase. -/
def pointerPhase (active : List PointerId) (event : PointerEvent) :
    SendPointerOutcome × List PointerId :=
  let known := active.contains event.pointer
  let erased := active.filter (· ≠ event.pointer)
  match event.phase with
  | .down => if known then (.invalid, active) else (.deliver, event.pointer :: active)
  | .move => if known then (.deliver, active) else (.invalid, active)
  | .up => if known then (.deliver, erased) else (.invalid, active)
  | .cancel => if known then (.deliver, erased) else (.ignored, active)
  | .unknown _ => (.invalid, active)

/-- An event that is not let through leaves the active pointers alone. -/
theorem pointer_phase_refused {active next : List PointerId} {event : PointerEvent}
    {outcome : SendPointerOutcome} (decided : pointerPhase active event = (outcome, next))
    (refused : outcome ≠ .deliver) : next = active := by
  unfold pointerPhase at decided
  cases phase : event.phase <;> simp only [phase] at decided
  case unknown =>
    cases decided
    rfl
  all_goals
    split at decided <;> cases decided <;> first | rfl | exact absurd rfl refused

/-- The section of `HostWindowDriver::send_pointer`. -/
def sendPointerLocked (state : HostWindowState) (event : PointerEvent) :
    SendPointerOutcome × HostWindowState :=
  if ¬ state.running ∨ ¬ state.visible ∨ event.x.isNone ∨ event.y.isNone then
    (if state.running then .invalid else .ignored, state)
  else
    let (outcome, activePointers) := pointerPhase state.activePointers event
    (outcome, { state with activePointers })

/-- The active pointers after taking an event back. -/
def undoPhase (active : List PointerId) (event : PointerEvent) : List PointerId :=
  match event.phase with
  | .down => active.filter (· ≠ event.pointer)
  | .up | .cancel => event.pointer :: active
  | _ => active

/-- The section that undoes an event whose delivery could not be posted. -/
def undoPointerLocked (state : HostWindowState) (generation : Nat) (event : PointerEvent) :
    HostWindowState :=
  if state.running ∧ state.delegateGeneration = generation then
    { state with activePointers := undoPhase state.activePointers event }
  else state

/-- The error of an event that does not fit its stream. -/
def invalidPointer : HostError :=
  ⟨.invalidPlatformEvent, .logicError "Invalid host pointer sequence"⟩

/-- `HostWindowDriver::send_pointer`. -/
def sendPointer (host : Host) (event : PointerEvent) : Host :=
  match sendPointerLocked host.state event with
  | (.ignored, _) => host
  | (.invalid, _) => host.reportError invalidPointer.source invalidPointer.failure
  | (.deliver, state) =>
    let generation := state.delegateGeneration
    let (posted, host) := { host with state }.tryPostUi
      [.invoke generation true (.pointerEvent event)]
    if ¬ posted then
      let host := { host with state := undoPointerLocked host.state generation event }
      host.reportPost.shutdown true
    else host

/-- The UI task of a surface change. -/
def surfaceTask (generation : Nat) (metricsChanged : Bool) (metrics : WindowMetrics)
    (event : SurfaceEvent) : List UiStep :=
  (if metricsChanged then [.invoke generation true (.metricsChanged metrics)] else []) ++
    [.invoke generation true (.surfaceChanged event)]

/-- `HostWindowDriver::set_surface_state`. -/
def setSurfaceState (host : Host) (surface : HostSurfaceState) : Host :=
  if ¬ host.state.running then host
  else match surface with
    | .unknown _ =>
      host.reportError .invalidPlatformEvent (.invalidArgument "Invalid host surface state")
    | surface =>
      match host.state.setSurfaceStateLocked surface with
      | (.unchanged, _) => host
      | (.exhausted, _) =>
        (host.reportError .invalidPlatformEvent (.overflowError "Host metrics exhausted")).shutdown true
      | (.changed metricsChanged control, state) =>
        let generation := state.delegateGeneration
        let (posted, host) := { host with state }.postUi
          (surfaceTask generation metricsChanged state.metrics
            ⟨state.id, surface, state.metrics.generation⟩)
        if ¬ posted then host.shutdown true else host.settleFrame control true

/-- Whether `invoke_delegate` reaches the delegate of this binding. -/
def invokes (state : HostWindowState) (generation : Nat) (requireRunning : Bool) : Bool :=
  ¬ (requireRunning ∧ ¬ state.running ∧ ¬ state.deliverQueuedEvents) ∧
    state.delegateGeneration = generation ∧ state.delegate.isSome

/-- `invoke_delegate`. -/
def invokeDelegate (host : Host) (generation : Nat) (requireRunning : Bool)
    (event : DelegateEvent) : Host :=
  if invokes host.state generation requireRunning then
    { host with delivered := host.delivered ++ [(generation, event)] }
  else host

/-- One part of a UI task. -/
def runUiStep (host : Host) : UiStep → Host
  | .invoke generation requireRunning event =>
    host.invokeDelegate generation requireRunning event
  | .frameRequested generation request =>
    if host.state.frameCurrentLocked request then
      host.invokeDelegate generation true (.frameRequested request)
    else host
  | .frameDelivered =>
    let (next, state) := host.state.frameDeliveredLocked
    { host with state }.settleFrame ⟨false, next⟩ false
  | .dropSemantics =>
    { host with
      state := { host.state with
        accessibility := { host.state.accessibility with
          bridge := { host.state.accessibility.bridge with differ := {}, transaction := none }
          desiredSemantics := none
          inFlight := false
          retryPending := false
          retryRequested := false
          publication := 0
          publicationService := 0 } } }
  | .finishShutdown generation =>
    { host with state := releaseDelegateLocked host.state generation }.schedulePlatformShutdown false

/-- A platform task; the control's `request_frame` may fail. -/
def runPlatformTask (host : Host) (fails : Bool) : PlatformTask → Host
  | .frameControl control =>
    match control.generation with
    | some generation =>
      if host.state.running ∧ fails then
        { host with state := host.state.frameRequestFailedLocked generation }.reportError
          .platformControl (.runtimeError "request_frame")
      else host
    | none => host
  | .completeShutdown => host.completePlatformShutdown

/-- What can happen to a window: calls of the application and of the platform,
the end of a delegate's life, and the executors running what was posted. -/
inductive Call where
  | bindDelegate (delegate : Nat) (onPlatform : Bool)
  | resetBinding (generation : Nat)
  | expireDelegate
  | requestFrame (onPlatform : Bool)
  | shutdown (onPlatform : Bool)
  | setMetrics (logicalSize : Size) (physicalWidth physicalHeight : Nat) (devicePixelRatio : ℚ)
  | setVisible (visible : Bool)
  | setFocused (focused : Bool)
  | framePulse (timestamp : Int) (generation : Nat)
  | sendPointer (event : PointerEvent)
  | setSurfaceState (surface : HostSurfaceState)
  | runUi
  | runPlatform (fails : Bool)

/-- A call under given outcomes of the posts it makes. -/
def perform (host : Host) (call : Call) : Option Host :=
  match call with
  | .bindDelegate delegate onPlatform => some (host.bindDelegate delegate onPlatform).2
  | .resetBinding generation => some (host.resetBinding generation)
  | .expireDelegate => some { host with state := { host.state with delegate := none } }
  | .requestFrame onPlatform => some (host.requestFrame onPlatform).2
  | .shutdown onPlatform => some (host.shutdown onPlatform)
  | .setMetrics logicalSize physicalWidth physicalHeight devicePixelRatio =>
    some (host.setMetrics logicalSize physicalWidth physicalHeight devicePixelRatio)
  | .setVisible visible => some (host.setVisible visible)
  | .setFocused focused => some (host.setFocused focused)
  | .framePulse timestamp generation => some (host.framePulse timestamp generation)
  | .sendPointer event => some (host.sendPointer event)
  | .setSurfaceState surface => some (host.setSurfaceState surface)
  | .runUi =>
    match host.uiQueue with
    | [] => none
    | step :: rest => some ({ host with uiQueue := rest }.runUiStep step)
  | .runPlatform fails =>
    match host.platformQueue with
    | [] => none
    | task :: rest => some ({ host with platformQueue := rest }.runPlatformTask fails task)

end Host

/-- A window from its creation on. Each step names the outcomes of its posts. -/
def hostMachine : Transition.Machine Host (List Bool × Host.Call) where
  init host := ∃ id logicalSize physicalWidth physicalHeight devicePixelRatio visible state,
    createHostWindow id logicalSize physicalWidth physicalHeight devicePixelRatio visible =
      .ok state ∧ host = { state }
  step host action := { host with posts := action.1 }.perform action.2

end Dui
