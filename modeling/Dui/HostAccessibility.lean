import Dui.HostState
import Dui.Transition

/-! Accessibility delivery across the two executors. The UI publishes trees, the
platform replaces adapters, and batches travel from the bridge to the adapter and
their acknowledgements back; every locked section and every post is one step. The
bridge is touched by the UI thread only, so its operations belong to the section
they follow. -/
namespace Dui
open ForestEdit Transition

/-- A batch on its way to an adapter. -/
structure Delivery where
  publication : AccessibilityPublication
  service : Nat
  adapter : Nat
  deriving DecidableEq

namespace HostWindowState

/-- The section of `publish_semantics`: the generation the publication is for. -/
def publishSemanticsLocked (state : HostWindowState) : Option Nat :=
  if state.running then some state.accessibility.generation else none

/-- The section of the task that `publish_semantics` posts: is the tree dispatched? -/
def desireSemanticsLocked (state : HostWindowState) (tree : SemanticsTree)
    (serviceGeneration : Nat) : Bool × HostWindowState :=
  if ¬ state.running then (false, state)
  else
    (state.accessibility.generation = serviceGeneration,
      { state with accessibility := { state.accessibility with desiredSemantics := some tree } })

/-- The section of `dispatch_desired_semantics`: the tree to prepare, the service and
the adapter it is for. -/
def dispatchDesiredLocked (state : HostWindowState) : Option (SemanticsTree × Nat × Nat) :=
  if ¬ state.running ∨ state.accessibility.inFlight ∨ state.accessibility.retryPending then none
  else match state.accessibility.adapter, state.accessibility.desiredSemantics with
    | some adapter, some desired => some (desired, state.accessibility.generation, adapter)
    | _, _ => none

/-- The first section of `post_accessibility_publication`: the batch is taken for
delivery, or rejected. -/
def claimDeliveryLocked (state : HostWindowState) (delivery : Delivery) : Bool × HostWindowState :=
  if ¬ state.running ∨ state.accessibility.adapter ≠ some delivery.adapter ∨
      state.accessibility.generation ≠ delivery.service ∨ state.accessibility.inFlight then
    (false, { state with
      accessibility := { state.accessibility with
        bridge := (state.accessibility.bridge.reject delivery.publication.generation).2 } })
  else
    (true, { state with
      accessibility := { state.accessibility with
        inFlight := true
        publication := delivery.publication.generation
        publicationService := delivery.service } })

/-- The section of the delivery task: is the batch still to be applied? -/
def deliveryCurrentLocked (state : HostWindowState) (delivery : Delivery) : Bool :=
  state.running && (state.accessibility.adapter = some delivery.adapter) &&
    (state.accessibility.generation = delivery.service) && state.accessibility.inFlight &&
    (state.accessibility.publication = delivery.publication.generation)

/-- The first section of the acknowledgement task, and what it does to the bridge;
`none` for an acknowledgement that is out of date. -/
def acknowledgeLocked (state : HostWindowState) (service generation : Nat) (success : Bool) :
    Option HostWindowState :=
  if ¬ state.running ∨ ¬ state.accessibility.inFlight ∨
      state.accessibility.generation ≠ service ∨
      state.accessibility.publication ≠ generation ∨
      state.accessibility.publicationService ≠ service then none
  else
    let bridge := state.accessibility.bridge
    some { state with
      accessibility := { state.accessibility with
        bridge := if success then (bridge.acknowledge generation).2
          else (bridge.reject generation).2 } }

/-- The second section of the acknowledgement task: was a retry asked for? -/
def deliveryDoneLocked (state : HostWindowState) (success : Bool) : Bool × HostWindowState :=
  (state.accessibility.retryRequested,
    { state with
      accessibility := { state.accessibility with
        inFlight := false, retryPending := !success, retryRequested := false } })

/-- The first section of `retry_semantics_on_ui`: the service and adapter to retry for. -/
def retrySemanticsLocked (state : HostWindowState) (serviceGeneration : Nat) :
    Option (Nat × Nat) × HostWindowState :=
  match state.accessibility.adapter with
  | none => (none, state)
  | some adapter =>
    if ¬ state.running ∨ state.accessibility.generation ≠ serviceGeneration ∨
        state.accessibility.publicationService ≠ serviceGeneration then (none, state)
    else if state.accessibility.inFlight then
      (none, { state with accessibility := { state.accessibility with retryRequested := true } })
    else if ¬ state.accessibility.retryPending then (none, state)
    else (some (state.accessibility.generation, adapter), state)

inductive SetAccessibilityAdapterOutcome where
  | stopped
  | exhausted
  | installed (service : Nat)
  deriving DecidableEq, Repr

/-- The section of `HostWindowDriver::set_accessibility_adapter`. -/
def setAccessibilityAdapterLocked (state : HostWindowState) (adapter : Option Nat) :
    SetAccessibilityAdapterOutcome × HostWindowState :=
  if ¬ state.running then (.stopped, state)
  else if state.accessibility.generation = maxGeneration then (.exhausted, state)
  else
    (.installed (state.accessibility.generation + 1), { state with
      accessibility := { state.accessibility with
        generation := state.accessibility.generation + 1
        adapter
        inFlight := false, retryPending := false, retryRequested := false
        publication := 0, publicationService := 0 } })

/-- The section of the task that `set_accessibility_adapter` posts; `none` when a
later adapter has taken over. -/
def resetAccessibilityLocked (state : HostWindowState) (service : Nat) : Option HostWindowState :=
  if ¬ state.running ∨ state.accessibility.generation ≠ service then none
  else
    some { state with
      accessibility := { state.accessibility with
        inFlight := false, retryPending := false, retryRequested := false
        publication := 0, publicationService := 0 } }

/-- Replaces the bridge. -/
def setBridge (state : HostWindowState) (bridge : AccessibilityBridge) : HostWindowState :=
  { state with accessibility := { state.accessibility with bridge } }

end HostWindowState

/-- The accessibility tasks of the UI executor. -/
inductive SemanticsTask where
  /-- Posted by `publish_semantics`. -/
  | publish (serviceGeneration : Nat) (tree : SemanticsTree)
  /-- Posted by a delivery task. -/
  | acknowledge (service generation : Nat) (success : Bool)
  /-- Posted by `set_accessibility_adapter`. -/
  | reset (service : Nat)

/-- Where the UI thread is. -/
inductive SemanticsPoint where
  | idle
  | publishing (serviceGeneration : Nat) (tree : SemanticsTree)
  | dispatching
  | claiming (delivery : Delivery)
  | sending (delivery : Delivery)
  | acknowledging (service : Nat) (success : Bool)
  | retrying (service : Nat)
  | clearingRetry (delivery : Delivery)

/-- Where the platform thread is. -/
inductive AdapterPoint where
  | idle
  | replacing (service : Nat)
  | reporting (service generation : Nat) (success : Bool)
  deriving DecidableEq

/-- A window with the accessibility tasks of its executors, where each thread is,
what the current adapter mirrors and the tree published last. -/
structure AccessibilitySystem where
  host : HostWindowState
  uiQueue : List SemanticsTask := []
  ui : SemanticsPoint := .idle
  platformQueue : List Delivery := []
  platform : AdapterPoint := .idle
  mirror : Mirror Nat SemanticsEntry := fun _ => none
  published : Option SemanticsTree := none

namespace AccessibilitySystem

/-- What can happen next: a call of either side, a thread going on, or an executor
taking a task. -/
inductive Action where
  | publishSemantics (tree : SemanticsTree)
  | setAccessibilityAdapter (adapter : Option Nat)
  | runUi
  | continueUi
  | runPlatform
  | continuePlatform

/-- A failure in accessibility delivery is reported and ends the window. -/
def fail (system : AccessibilitySystem) : AccessibilitySystem :=
  { system with host := system.host.stopLocked, ui := .idle }

/-- `HostWindow::publish_semantics` up to its post: the tree is checked by a differ
of its own first. -/
def publishSemantics (system : AccessibilitySystem) (tree : SemanticsTree) : AccessibilitySystem :=
  match flattenTree tree with
  | .error _ => system
  | .ok _ =>
    match system.host.publishSemanticsLocked with
    | none => system
    | some serviceGeneration => { system with ui := .publishing serviceGeneration tree }

/-- `HostWindowDriver::set_accessibility_adapter` up to its post. A new adapter
starts empty. -/
def setAccessibilityAdapter (system : AccessibilitySystem) (adapter : Option Nat) :
    AccessibilitySystem :=
  match system.host.setAccessibilityAdapterLocked adapter with
  | (.stopped, _) => system
  | (.exhausted, host) => { system with host := host.stopLocked }
  | (.installed service, host) =>
    { system with host, platform := .replacing service, mirror := fun _ => none }

/-- The first section of a UI task. -/
def runSemanticsTask (system : AccessibilitySystem) : SemanticsTask → AccessibilitySystem
  | .publish serviceGeneration tree =>
    match system.host.desireSemanticsLocked tree serviceGeneration with
    | (true, host) => { system with host, ui := .dispatching }
    | (false, host) => { system with host }
  | .acknowledge service generation success =>
    match system.host.acknowledgeLocked service generation success with
    | none => system
    | some host => { system with host, ui := .acknowledging service success }
  | .reset service =>
    match system.host.resetAccessibilityLocked service with
    | none => system
    | some host =>
      match host.accessibility.bridge.resetAcknowledged with
      -- The exception ends the task.
      | .error _ => { system with host }
      | .ok bridge => { system with host := host.setBridge bridge, ui := .dispatching }

/-- `dispatch_desired_semantics` up to `post_accessibility_publication`. -/
def dispatchDesired (system : AccessibilitySystem) : AccessibilitySystem :=
  match system.host.dispatchDesiredLocked with
  | none => { system with ui := .idle }
  | some (desired, service, adapter) =>
    match system.host.accessibility.bridge.prepare desired with
    | .error _ => system.fail
    | .ok (none, bridge) => { system with host := system.host.setBridge bridge, ui := .idle }
    | .ok (some publication, bridge) =>
      { system with
        host := system.host.setBridge bridge, ui := .claiming ⟨publication, service, adapter⟩ }

/-- `retry_semantics_on_ui` up to its second section. -/
def retrySemantics (system : AccessibilitySystem) (serviceGeneration : Nat) : AccessibilitySystem :=
  match system.host.retrySemanticsLocked serviceGeneration with
  | (none, host) => { system with host, ui := .idle }
  | (some (service, adapter), host) =>
    match host.accessibility.bridge.retry with
    | .error _ => fail { system with host }
    | .ok (none, bridge) => { system with host := host.setBridge bridge, ui := .idle }
    | .ok (some publication, bridge) =>
      { system with
        host := host.setBridge bridge, ui := .clearingRetry ⟨publication, service, adapter⟩ }

/-- The UI thread from where it is to its next point. -/
def continueUi (system : AccessibilitySystem) : Option AccessibilitySystem :=
  match system.ui with
  | .idle => none
  | .publishing serviceGeneration tree =>
    some { system with
      uiQueue := system.uiQueue ++ [.publish serviceGeneration tree]
      ui := .idle
      published := some tree }
  | .dispatching => some system.dispatchDesired
  | .claiming delivery =>
    match system.host.claimDeliveryLocked delivery with
    | (true, host) => some { system with host, ui := .sending delivery }
    | (false, host) => some { system with host, ui := .idle }
  | .sending delivery =>
    some { system with platformQueue := system.platformQueue ++ [delivery], ui := .idle }
  | .acknowledging service success =>
    let done := system.host.deliveryDoneLocked success
    some { system with
      host := done.2
      ui := if success then .dispatching else if done.1 then .retrying service else .idle }
  | .retrying service => some (system.retrySemantics service)
  | .clearingRetry delivery =>
    some { system with
      host := { system.host with
        accessibility := { system.host.accessibility with retryPending := false } }
      ui := .claiming delivery }

/-- The delivery task up to its post. The adapter applies a batch as a whole or not
at all. -/
def runDelivery (system : AccessibilitySystem) (delivery : Delivery) : AccessibilitySystem :=
  if ¬ system.host.deliveryCurrentLocked delivery then system
  else match replay entryKeys system.mirror delivery.publication.update with
    | some mirror =>
      { system with
        mirror, platform := .reporting delivery.service delivery.publication.generation true }
    | none =>
      { system with platform := .reporting delivery.service delivery.publication.generation false }

/-- The platform thread from where it is to its next point. -/
def continuePlatform (system : AccessibilitySystem) : Option AccessibilitySystem :=
  match system.platform with
  | .idle => none
  | .replacing service =>
    some { system with uiQueue := system.uiQueue ++ [.reset service], platform := .idle }
  | .reporting service generation success =>
    some { system with
      uiQueue := system.uiQueue ++ [.acknowledge service generation success], platform := .idle }

/-- The UI thread can begin something new. -/
def uiIdle (system : AccessibilitySystem) : Bool :=
  match system.ui with
  | .idle => true
  | _ => false

/-- A step of the system. Calls and tasks of a thread start when it has nothing left
to do. -/
def step (system : AccessibilitySystem) : Action → Option AccessibilitySystem
  | .publishSemantics tree => if system.uiIdle then some (system.publishSemantics tree) else none
  | .setAccessibilityAdapter adapter =>
    if system.platform = .idle then some (system.setAccessibilityAdapter adapter) else none
  | .runUi =>
    match system.uiQueue with
    | [] => none
    | task :: rest =>
      if system.uiIdle then some ({ system with uiQueue := rest }.runSemanticsTask task) else none
  | .continueUi => system.continueUi
  | .runPlatform =>
    match system.platformQueue with
    | [] => none
    | delivery :: rest =>
      if system.platform = .idle then
        some ({ system with platformQueue := rest }.runDelivery delivery) else none
  | .continuePlatform => system.continuePlatform

/-- Nothing is queued and no thread is inside an operation. -/
def quiet (system : AccessibilitySystem) : Bool :=
  system.uiQueue.isEmpty && system.uiIdle && system.platformQueue.isEmpty &&
    (system.platform = .idle)

end AccessibilitySystem

/-- Accessibility delivery from the creation of the window on. -/
def accessibilityMachine : Machine AccessibilitySystem AccessibilitySystem.Action where
  init system := ∃ id logicalSize physicalWidth physicalHeight devicePixelRatio visible host,
    createHostWindow id logicalSize physicalWidth physicalHeight devicePixelRatio visible =
      .ok host ∧ system = { host }
  step := AccessibilitySystem.step

end Dui
