import Mathlib.Algebra.Order.Ring.Abs
import Mathlib.Algebra.Order.Ring.Rat
import Mathlib.Data.List.Sort
import Dui.AccessibilityBridge
import Dui.TextEditing

/-! The state a host window shares between the platform and the UI executor,
and the sections in which the host reads or changes it under its mutex. Every
section is one function here, so that the machines built on top can cut the
host's operations at the same places as the locks do. -/
namespace Dui

abbrev WindowId := Nat

abbrev PointerId := Nat

structure WindowMetrics where
  logicalSize : Size := {}
  physicalWidth : Nat := 0
  physicalHeight : Nat := 0
  devicePixelRatio : ℚ := 1
  generation : Nat := 0
  deriving DecidableEq, Repr

/-- `SurfaceRequest::valid` of the request that the metrics describe. -/
def WindowMetrics.valid (metrics : WindowMetrics) : Bool :=
  0 ≤ metrics.logicalSize.width && 0 ≤ metrics.logicalSize.height &&
    0 < metrics.devicePixelRatio && metrics.generation ≠ 0 &&
    (if metrics.logicalSize.width = 0 ∨ metrics.logicalSize.height = 0 then
      metrics.physicalWidth = 0 ∨ metrics.physicalHeight = 0
    else metrics.physicalWidth ≠ 0 ∧ metrics.physicalHeight ≠ 0) &&
    |(metrics.physicalWidth : ℚ) - metrics.logicalSize.width * metrics.devicePixelRatio| ≤ 1 &&
    |(metrics.physicalHeight : ℚ) - metrics.logicalSize.height * metrics.devicePixelRatio| ≤ 1

/-- A surface state as the platform reports it; `unknown` is any other value of
the enumeration's underlying type. -/
inductive HostSurfaceState where
  | available
  | unavailable
  | outOfDate
  | lost
  | unknown (raw : Int)
  deriving DecidableEq, Repr

inductive PointerPhase where
  | down
  | move
  | up
  | cancel
  | unknown (raw : Int)
  deriving DecidableEq, Repr

/-- A pointer event; a coordinate that is not finite is `none`. -/
structure PointerEvent where
  pointer : PointerId
  phase : PointerPhase
  x : Option ℚ := some 0
  y : Option ℚ := some 0
  deriving DecidableEq, Repr

structure SurfaceEvent where
  window : WindowId
  state : HostSurfaceState
  generation : Nat
  deriving DecidableEq, Repr

structure FrameRequest where
  window : WindowId
  metrics : WindowMetrics
  timestamp : Int
  sequence : Nat
  deriving DecidableEq, Repr

structure ClipboardRequestId where
  service : Nat
  sequence : Nat
  deriving DecidableEq, Repr

inductive ClipboardOperation where
  | readText
  | writeText
  deriving DecidableEq, Repr

structure PendingClipboardRequest where
  id : ClipboardRequestId
  operation : ClipboardOperation
  deriving DecidableEq, Repr

inductive ClipboardStatus where
  | success
  | unavailable
  | denied
  | failed
  | canceled
  | unknown (raw : Int)
  deriving DecidableEq, Repr

structure ClipboardResult where
  window : WindowId
  request : ClipboardRequestId
  operation : ClipboardOperation
  status : ClipboardStatus
  text : Option (List UInt8) := none
  deriving DecidableEq, Repr

/-- The shapes of the pointer; `unknown` is any other value of the enumeration's
underlying type. -/
inductive SystemCursor where
  | systemDefault
  | arrow
  | text
  | hand
  | crosshair
  | move
  | notAllowed
  | resizeHorizontal
  | resizeVertical
  | resizeNwse
  | resizeNesw
  | hidden
  | unknown (raw : Int)
  deriving DecidableEq, Repr

/-- `HostTextSession`: the application's text session with its two revisions.
`client` says whether the application still holds the client. -/
structure HostTextSession where
  id : Nat
  client : Bool := true
  configuration : TextInputConfiguration := {}
  value : TextEditingValue
  editableRect : Option Rect := none
  valueRevision : Nat := 1
  rectRevision : Nat := 0
  deriving DecidableEq, Repr

/-- The `frame_*` fields. -/
structure FrameState where
  demand : Bool := false
  armed : Bool := false
  delivering : Bool := false
  generationExhausted : Bool := false
  generation : Nat := 0
  nextSequence : Nat := 1
  lastTimestamp : Option Int := none
  deriving DecidableEq, Repr

/-- The `accessibility_*` fields; adapters are told apart by a number. -/
structure AccessibilityState where
  adapter : Option Nat := none
  bridge : AccessibilityBridge := {}
  desiredSemantics : Option SemanticsTree := none
  generation : Nat := 0
  publication : Nat := 0
  publicationService : Nat := 0
  inFlight : Bool := false
  retryPending : Bool := false
  retryRequested : Bool := false

/-- The `text_*` and `native_text_*` fields; backends are told apart by a number. -/
structure TextInputState where
  backend : Option Nat := none
  nativeBackend : Option Nat := none
  session : Option HostTextSession := none
  nativeSession : Nat := 0
  nativePublicSession : Nat := 0
  serviceGeneration : Nat := 0
  nativeServiceGeneration : Nat := 0
  nativeCallbackGeneration : Nat := 0
  nextSession : Nat := 1
  nextCallbackGeneration : Nat := 1
  nativeValueRevision : Nat := 0
  nativeRectRevision : Nat := 0
  syncPending : Bool := false
  deriving DecidableEq, Repr

structure HostWindowState where
  id : WindowId
  metrics : WindowMetrics
  visible : Bool := false
  focused : Bool := false
  surfaceState : HostSurfaceState := .available
  running : Bool := true
  deliverQueuedEvents : Bool := true
  shutdownUiPending : Bool := false
  platformShutdownPending : Bool := false
  platformShutdownComplete : Bool := false
  /-- The delegate bound last, while it is alive and bound. -/
  delegate : Option Nat := none
  delegateGeneration : Nat := 0
  frame : FrameState := {}
  activePointers : List PointerId := []
  accessibility : AccessibilityState := {}
  text : TextInputState := {}
  /-- Clipboard and cursor backends are told apart by a number. -/
  clipboardBackend : Option Nat := none
  clipboardServiceGeneration : Nat := 0
  clipboardNextSequence : Nat := 1
  clipboardRequests : List PendingClipboardRequest := []
  cursorBackend : Option Nat := none
  desiredCursor : SystemCursor := .systemDefault
  appliedCursor : Option SystemCursor := none
  cursorServiceGeneration : Nat := 0
  cursorRevision : Nat := 0
  cursorSyncPending : Bool := false
  cursorPendingService : Nat := 0

inductive HostErrorSource where
  | invalidPlatformEvent
  | taskPost
  | platformControl
  | delegateCallback
  | shutdown
  | accessibility
  | textInput
  | clipboard
  | cursor
  deriving DecidableEq, Repr

/-- `HostErrorHandler` calls: where the error came from and what it says. -/
structure HostError where
  source : HostErrorSource
  failure : Failure
  deriving DecidableEq, Repr

/-- The calls a delegate receives. -/
inductive DelegateEvent where
  | windowCreated (metrics : WindowMetrics)
  | metricsChanged (metrics : WindowMetrics)
  | visibilityChanged (visible : Bool)
  | focusChanged (focused : Bool)
  | frameRequested (request : FrameRequest)
  | pointerEvent (event : PointerEvent)
  | surfaceChanged (event : SurfaceEvent)
  | clipboardCompleted (result : ClipboardResult)
  | clipboardCanceled (request : PendingClipboardRequest)
  | windowShuttingDown
  deriving DecidableEq, Repr

/-- What `create_host_window` checks and sets up. -/
def createHostWindow (id : WindowId) (logicalSize : Size) (physicalWidth physicalHeight : Nat)
    (devicePixelRatio : ℚ) (visible : Bool) : Except Failure HostWindowState :=
  let metrics : WindowMetrics :=
    ⟨logicalSize, physicalWidth, physicalHeight, devicePixelRatio, 1⟩
  if id = 0 then .error (.invalidArgument "Host window ID must be nonzero")
  else if ¬ metrics.valid then
    .error (.invalidArgument "Host window configuration has invalid metrics")
  else .ok { id, metrics, visible }

/-- How `arm_frame_locked` changes the frame fields: a frame is asked for under a
fresh generation, once. -/
def FrameState.arm (frame : FrameState) (usable : Bool) : Option Nat × FrameState :=
  if ¬ usable ∨ frame.armed ∨ frame.delivering ∨ ¬ frame.demand then (none, frame)
  else if frame.generation = maxGeneration then (none, { frame with generationExhausted := true })
  else (some (frame.generation + 1), { frame with generation := frame.generation + 1, armed := true })

/-- How `invalidate_frame_locked` changes the frame fields: what was asked for is
wanted again, under no generation given out so far. -/
def FrameState.invalidate (frame : FrameState) : FrameState :=
  let wanted := if frame.armed ∨ frame.delivering then
    { frame with demand := true, armed := false } else frame
  if wanted.generation ≠ maxGeneration then { wanted with generation := wanted.generation + 1 }
  else { wanted with generationExhausted := true }

/-- How `HostWindow::shutdown` changes the frame fields. -/
def FrameState.stop (frame : FrameState) : FrameState :=
  { frame with
    demand := false
    armed := false
    generation := if frame.generation ≠ maxGeneration then frame.generation + 1
      else frame.generation }

namespace HostWindowState

/-- The window can show a frame. -/
def usable (state : HostWindowState) : Bool :=
  state.running && state.visible && (state.surfaceState = .available)

/-- `arm_frame_locked`. -/
def armFrameLocked (state : HostWindowState) : Option Nat × HostWindowState :=
  ((state.frame.arm state.usable).1, { state with frame := (state.frame.arm state.usable).2 })

/-- `invalidate_frame_locked`. -/
def invalidateFrameLocked (state : HostWindowState) : HostWindowState :=
  { state with frame := state.frame.invalidate }

/-- `take_active_pointers_locked`: the streams to cancel, in order. -/
def takeActivePointersLocked (state : HostWindowState) : List PointerId × HostWindowState :=
  (state.activePointers.insertionSort (· ≤ ·), { state with activePointers := [] })

/-- The section of `frame_generation_exhausted`. -/
def frameGenerationExhaustedLocked (state : HostWindowState) : Bool × HostWindowState :=
  (state.frame.generationExhausted,
    { state with frame := { state.frame with generationExhausted := false } })

/-- The section of `HostWindow::request_frame`; `none` when the window has stopped. -/
def requestFrameLocked (state : HostWindowState) : Option (Option Nat × HostWindowState) :=
  if ¬ state.running then none
  else
    let state : HostWindowState := { state with frame := { state.frame with demand := true } }
    some state.armFrameLocked

/-- `same_metrics`. -/
def sameMetrics (current : WindowMetrics) (logicalSize : Size)
    (physicalWidth physicalHeight : Nat) (devicePixelRatio : ℚ) : Bool :=
  current.logicalSize = logicalSize ∧ current.physicalWidth = physicalWidth ∧
    current.physicalHeight = physicalHeight ∧ current.devicePixelRatio = devicePixelRatio

/-- What a section that may touch frame control leaves to be posted. -/
structure FrameControl where
  cancel : Bool := false
  generation : Option Nat := none
  deriving DecidableEq, Repr

inductive SetMetricsOutcome where
  | unchanged
  | invalid
  | changed (control : FrameControl)
  deriving DecidableEq, Repr

/-- The section of `HostWindowDriver::set_metrics`. -/
def setMetricsLocked (state : HostWindowState) (logicalSize : Size)
    (physicalWidth physicalHeight : Nat) (devicePixelRatio : ℚ) :
    SetMetricsOutcome × HostWindowState :=
  if ¬ state.running ∨
      sameMetrics state.metrics logicalSize physicalWidth physicalHeight devicePixelRatio then
    (.unchanged, state)
  else
    let metrics : WindowMetrics :=
      if state.metrics.generation = maxGeneration then {}
      else ⟨logicalSize, physicalWidth, physicalHeight, devicePixelRatio,
        state.metrics.generation + 1⟩
    if ¬ metrics.valid then (.invalid, state)
    else
      let cancel := state.frame.armed
      let armed := { state.invalidateFrameLocked with metrics := metrics }.armFrameLocked
      (.changed ⟨cancel, armed.1⟩, armed.2)

/-- Metrics are left alone, or replaced while the frame asked for is renewed. -/
theorem set_metrics_cases (state : HostWindowState) (logicalSize : Size)
    (physicalWidth physicalHeight : Nat) (devicePixelRatio : ℚ) :
    (∃ outcome, (outcome = .unchanged ∨ outcome = .invalid) ∧
      state.setMetricsLocked logicalSize physicalWidth physicalHeight devicePixelRatio =
        (outcome, state)) ∨
    ∃ metrics : WindowMetrics, state.running ∧ metrics.valid ∧
      state.setMetricsLocked logicalSize physicalWidth physicalHeight devicePixelRatio =
        (.changed ⟨state.frame.armed,
          ({ state.invalidateFrameLocked with metrics } : HostWindowState).armFrameLocked.1⟩,
          ({ state.invalidateFrameLocked with metrics } : HostWindowState).armFrameLocked.2) := by
  unfold setMetricsLocked
  split
  · exact Or.inl ⟨_, Or.inl rfl, rfl⟩
  · rename_i changed
    dsimp only
    generalize (if state.metrics.generation = maxGeneration then ({} : WindowMetrics) else _) =
      metrics
    split
    · exact Or.inl ⟨_, Or.inr rfl, rfl⟩
    · rename_i valid
      exact Or.inr ⟨metrics, by simpa using (not_or.mp changed).1, by simpa using valid, rfl⟩

structure SetVisibleOutcome where
  focusLost : Bool := false
  pointers : List PointerId := []
  control : FrameControl := {}
  deriving DecidableEq, Repr

/-- The section of `HostWindowDriver::set_visible`; `none` when it returns at once. -/
def setVisibleLocked (state : HostWindowState) (visible : Bool) :
    Option (SetVisibleOutcome × HostWindowState) :=
  if ¬ state.running ∨ state.visible = visible then none
  else if visible then
    let armed := { state with visible := true }.armFrameLocked
    some (⟨false, [], ⟨false, armed.1⟩⟩, armed.2)
  else
    let hidden := { state with visible := false, focused := false }.takeActivePointersLocked
    some (⟨state.focused, hidden.1, ⟨state.frame.armed, none⟩⟩, hidden.2.invalidateFrameLocked)

/-- The window is shown and asks for a frame, or hidden with its streams and the
frame asked for taken back. -/
theorem set_visible_cases (state : HostWindowState) (visible : Bool) :
    state.setVisibleLocked visible = none ∨
    (visible = true ∧ state.running ∧ state.visible = false ∧ state.setVisibleLocked visible =
      some (⟨false, [], ⟨false, { state with visible := true }.armFrameLocked.1⟩⟩,
        { state with visible := true }.armFrameLocked.2)) ∨
    (visible = false ∧ state.running ∧ state.setVisibleLocked visible =
      some (⟨state.focused, state.activePointers.insertionSort (· ≤ ·), ⟨state.frame.armed, none⟩⟩,
        { state with visible := false, focused := false, activePointers := []
        }.invalidateFrameLocked)) := by
  unfold setVisibleLocked
  split
  · exact Or.inl rfl
  · rename_i changed
    have running : state.running = true := by simpa using (not_or.mp changed).1
    cases visible with
    | true => exact Or.inr (Or.inl ⟨rfl, running, by simpa using (not_or.mp changed).2, rfl⟩)
    | false => exact Or.inr (Or.inr ⟨rfl, running, rfl⟩)

inductive SetFocusedOutcome where
  | unchanged
  | invalid
  | changed (pointers : List PointerId)
  deriving DecidableEq, Repr

/-- The section of `HostWindowDriver::set_focused`. -/
def setFocusedLocked (state : HostWindowState) (focused : Bool) :
    SetFocusedOutcome × HostWindowState :=
  if ¬ state.running ∨ state.focused = focused then (.unchanged, state)
  else if focused ∧ ¬ state.visible then (.invalid, state)
  else if focused then (.changed [], { state with focused := true })
  else
    let unfocused := { state with focused := false }.takeActivePointersLocked
    (.changed unfocused.1, unfocused.2)

theorem set_focused_cases (state : HostWindowState) (focused : Bool) :
    (∃ outcome, (outcome = .unchanged ∨ outcome = .invalid) ∧
      state.setFocusedLocked focused = (outcome, state)) ∨
    (focused = true ∧ state.running ∧
      state.setFocusedLocked focused = (.changed [], { state with focused := true })) ∨
    (focused = false ∧ state.running ∧ state.focused ∧ state.setFocusedLocked focused =
      (.changed (state.activePointers.insertionSort (· ≤ ·)),
        { state with focused := false, activePointers := [] })) := by
  unfold setFocusedLocked
  split
  · exact Or.inl ⟨_, Or.inl rfl, rfl⟩
  · rename_i changed
    obtain ⟨running, changed⟩ := not_or.mp changed
    split
    · exact Or.inl ⟨_, Or.inr rfl, rfl⟩
    · cases focused with
      | true => exact Or.inr (Or.inl ⟨rfl, by simpa using running, rfl⟩)
      | false =>
        exact Or.inr (Or.inr ⟨rfl, by simpa using running, by simpa using changed, rfl⟩)

inductive SetSurfaceStateOutcome where
  | unchanged
  | exhausted
  | changed (metricsChanged : Bool) (control : FrameControl)
  deriving DecidableEq, Repr

/-- The section of `HostWindowDriver::set_surface_state`. -/
def setSurfaceStateLocked (state : HostWindowState) (surface : HostSurfaceState) :
    SetSurfaceStateOutcome × HostWindowState :=
  if ¬ state.running ∨ state.surfaceState = surface then (.unchanged, state)
  else
    let metricsChanged := surface = .outOfDate ∨
      (surface = .available ∧ state.surfaceState ≠ .available)
    if metricsChanged ∧ state.metrics.generation = maxGeneration then (.exhausted, state)
    else
      let metrics := if metricsChanged then
        { state.metrics with generation := state.metrics.generation + 1 } else state.metrics
      let moved := { state with metrics, surfaceState := surface }
      if surface ≠ .available then
        (.changed metricsChanged ⟨state.frame.armed, none⟩, moved.invalidateFrameLocked)
      else
        let armed := moved.armFrameLocked
        (.changed metricsChanged ⟨false, armed.1⟩, armed.2)

/-- The surface state is left alone, or moves and the frame fields follow it. -/
theorem set_surface_state_cases (state : HostWindowState) (surface : HostSurfaceState) :
    (∃ outcome, (outcome = .unchanged ∨ outcome = .exhausted) ∧
      state.setSurfaceStateLocked surface = (outcome, state)) ∨
    ∃ metrics metricsChanged, state.running ∧
      ((surface ≠ .available ∧ state.setSurfaceStateLocked surface =
        (.changed metricsChanged ⟨state.frame.armed, none⟩,
          ({ state with metrics, surfaceState := surface } : HostWindowState).invalidateFrameLocked)) ∨
      (surface = .available ∧ state.surfaceState ≠ .available ∧ state.setSurfaceStateLocked surface =
        (.changed metricsChanged ⟨false,
          ({ state with metrics, surfaceState := surface } : HostWindowState).armFrameLocked.1⟩,
          ({ state with metrics, surfaceState := surface } : HostWindowState).armFrameLocked.2))) := by
  unfold setSurfaceStateLocked
  split
  · exact Or.inl ⟨_, Or.inl rfl, rfl⟩
  · rename_i changed
    have running : state.running = true := by simpa using (not_or.mp changed).1
    dsimp only
    split
    · exact Or.inl ⟨_, Or.inr rfl, rfl⟩
    · split
      · rename_i away
        exact Or.inr ⟨_, _, running, Or.inl ⟨away, rfl⟩⟩
      · rename_i here
        obtain rfl := not_not.mp here
        exact Or.inr ⟨_, _, running, Or.inr ⟨rfl, (not_or.mp changed).2, rfl⟩⟩

inductive FramePulseOutcome where
  | ignored
  | invalidTimestamp
  | exhausted
  | accepted (request : FrameRequest)
  deriving DecidableEq, Repr

/-- The section of `HostWindowDriver::frame_pulse`. -/
def framePulseLocked (state : HostWindowState) (timestamp : Int) (generation : Nat) :
    FramePulseOutcome × HostWindowState :=
  if ¬ state.running ∨ ¬ state.frame.armed ∨ state.frame.generation ≠ generation ∨
      ¬ state.visible ∨ state.surfaceState ≠ .available then (.ignored, state)
  else if timestamp < 0 ∨ state.frame.lastTimestamp.any (timestamp < ·) then
    (.invalidTimestamp, state)
  else if state.frame.nextSequence = maxGeneration then
    (.exhausted, { state with frame := { state.frame with armed := false, delivering := false } })
  else
    (.accepted ⟨state.id, state.metrics, timestamp, state.frame.nextSequence⟩,
      { state with
        frame := { state.frame with
          armed := false, delivering := true, demand := false, lastTimestamp := some timestamp
          nextSequence := state.frame.nextSequence + 1 } })

/-- A pulse is refused, ends the window, or starts the delivery of the frame asked for. -/
theorem frame_pulse_cases (state : HostWindowState) (timestamp : Int) (generation : Nat) :
    (∃ outcome, (outcome = .ignored ∨ outcome = .invalidTimestamp) ∧
      state.framePulseLocked timestamp generation = (outcome, state)) ∨
    (state.frame.nextSequence = maxGeneration ∧ state.usable ∧ state.frame.armed ∧
      state.frame.generation = generation ∧ state.framePulseLocked timestamp generation =
        (.exhausted,
          { state with frame := { state.frame with armed := false, delivering := false } })) ∨
    (state.frame.nextSequence ≠ maxGeneration ∧ state.usable ∧ state.frame.armed ∧
      state.frame.generation = generation ∧ state.framePulseLocked timestamp generation =
        (.accepted ⟨state.id, state.metrics, timestamp, state.frame.nextSequence⟩,
          { state with
            frame := { state.frame with
              armed := false, delivering := true, demand := false, lastTimestamp := some timestamp
              nextSequence := state.frame.nextSequence + 1 } })) := by
  unfold framePulseLocked
  split
  · exact Or.inl ⟨_, Or.inl rfl, rfl⟩
  rename_i pulsed
  simp only [not_or, not_not, Bool.not_eq_true, Bool.not_eq_false] at pulsed
  obtain ⟨running, armed, same, visible, available⟩ := pulsed
  have usable : state.usable = true := by simp [usable, running, visible, available]
  split
  · exact Or.inl ⟨_, Or.inr rfl, rfl⟩
  · split
    · exact Or.inr (Or.inl ⟨‹_›, usable, armed, same, rfl⟩)
    · exact Or.inr (Or.inr ⟨‹_›, usable, armed, same, rfl⟩)

/-- The first section of a frame task: is the frame still the one to deliver? -/
def frameCurrentLocked (state : HostWindowState) (request : FrameRequest) : Bool :=
  state.running && state.frame.delivering && state.visible &&
    (state.surfaceState = .available) &&
    (state.metrics.generation = request.metrics.generation)

/-- The last section of a frame task. -/
def frameDeliveredLocked (state : HostWindowState) : Option Nat × HostWindowState :=
  { state with frame := { state.frame with delivering := false } }.armFrameLocked

/-- The section in which a failed `request_frame` of the control gives the frame up. -/
def frameRequestFailedLocked (state : HostWindowState) (generation : Nat) : HostWindowState :=
  if state.frame.armed ∧ state.frame.generation = generation then
    { state with frame := { state.frame with armed := false, demand := false } }
  else state

/-- The section of `HostWindow::shutdown` on a running window, up to the streams. -/
def stopLocked (state : HostWindowState) : HostWindowState :=
  { state with
    running := false
    shutdownUiPending := true
    frame := state.frame.stop
    text := { state.text with session := none, syncPending := false }
    clipboardRequests := []
    cursorSyncPending := false
    cursorPendingService := 0 }

end HostWindowState

end Dui
