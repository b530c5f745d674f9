import Dui.HostAccessibility

/-! When the current adapter mirrors the tree published last. A batch is computed
against what the bridge believes the adapter holds, so a new adapter needs the bridge
reset before anything is dispatched to it, and a publication that finds its service
replaced needs a reset still to come that will dispatch it. -/
namespace Dui
open ForestEdit HostWindowState Transition AccessibilitySystem

/-- The tree passes the checks of `publish_semantics`. -/
def SemanticsTree.Accepted (tree : SemanticsTree) : Prop := flattenTree tree = .ok tree.entries

theorem SemanticsTree.accepted_of {tree : SemanticsTree} {next : List SemanticsEntry}
    (flattened : flattenTree tree = .ok next) : tree.Accepted := by
  obtain ⟨rfl, _⟩ := flatten_tree_ok flattened
  exact flattened

namespace SemanticsTask

/-- The task resets the bridge for this service. -/
def resets (service : Nat) : SemanticsTask → Bool
  | .reset other => other = service
  | _ => false

/-- The tree to show after this task, if it publishes one. -/
def desired (task : SemanticsTask) (before : Option SemanticsTree) : Option SemanticsTree :=
  match task with
  | .publish _ tree => some tree
  | _ => before

/-- A queued task speaks of trees that were accepted, batches that were prepared and
services that were installed. -/
def Sound (host : HostWindowState) : SemanticsTask → Prop
  | .publish _ tree => tree.Accepted
  | .acknowledge _ generation _ => generation < host.accessibility.bridge.nextGeneration
  | .reset service => service ≤ host.accessibility.generation

theorem Sound.mono {host next : HostWindowState} {task : SemanticsTask} (sound : task.Sound host)
    (batches : host.accessibility.bridge.nextGeneration ≤ next.accessibility.bridge.nextGeneration)
    (services : host.accessibility.generation ≤ next.accessibility.generation) :
    task.Sound next := by
  cases task with
  | publish => exact sound
  | acknowledge => exact Nat.lt_of_lt_of_le sound batches
  | reset => exact Nat.le_trans sound services

end SemanticsTask

/-- The tree to show once the queued publications have run. -/
def lastTree (queue : List SemanticsTask) (desired : Option SemanticsTree) :
    Option SemanticsTree :=
  queue.foldl (fun before task => task.desired before) desired

@[simp] theorem last_tree_nil (desired : Option SemanticsTree) : lastTree [] desired = desired := rfl

@[simp] theorem last_tree_cons (task : SemanticsTask) (rest : List SemanticsTask)
    (desired : Option SemanticsTree) :
    lastTree (task :: rest) desired = lastTree rest (task.desired desired) := rfl

@[simp] theorem last_tree_append (queue : List SemanticsTask) (task : SemanticsTask)
    (desired : Option SemanticsTree) :
    lastTree (queue ++ [task]) desired = task.desired (lastTree queue desired) := by
  rw [lastTree, List.foldl_append]
  rfl

namespace AccessibilitySystem

/-- The resets for the current service that have yet to run. -/
def resetsDue (system : AccessibilitySystem) : Nat :=
  system.uiQueue.countP (SemanticsTask.resets system.host.accessibility.generation) +
    if system.platform = .replacing system.host.accessibility.generation then 1 else 0

/-- What holds of the window and its queues whatever is on its way. -/
structure Basic (system : AccessibilitySystem) : Prop where
  running : system.host.running = true
  delivering : system.host.accessibility.bridge.delivering = false
  retryPending : system.host.accessibility.retryPending = false
  retryRequested : system.host.accessibility.retryRequested = false
  tasks : ∀ task ∈ system.uiQueue, task.Sound system.host
  deliveries : ∀ delivery ∈ system.platformQueue,
    delivery.publication.generation < system.host.accessibility.bridge.nextGeneration
  publishing : ∀ generation tree, system.ui = .publishing generation tree → tree.Accepted
  accepted : ∀ tree, system.host.accessibility.desiredSemantics = some tree → tree.Accepted
  unpublished : system.host.accessibility.desiredSemantics = none →
    system.host.accessibility.bridge.differ.entries = [] ∧
      system.host.accessibility.bridge.transaction = none
  latest : lastTree system.uiQueue system.host.accessibility.desiredSemantics = system.published

/-- The UI thread holds no batch and no acknowledgement. -/
def Unburdened : SemanticsPoint → Prop
  | .idle | .publishing .. | .dispatching => True
  | _ => False

/-- What the UI thread holds was meant for an adapter that has been replaced. -/
def Overtaken (host : HostWindowState) : SemanticsPoint → Prop
  | .idle | .publishing .. | .dispatching => True
  | .claiming delivery =>
    delivery.service < host.accessibility.generation ∧
      delivery.publication.generation < host.accessibility.bridge.nextGeneration
  | .sending delivery =>
    delivery.publication.generation < host.accessibility.bridge.nextGeneration
  | .acknowledging _ success => success = true
  | .retrying .. | .clearingRetry .. => False

/-- The adapter is new and empty, and the reset for it has yet to run. -/
structure Awaiting (system : AccessibilitySystem) : Prop where
  due : system.resetsDue = 1
  empty : system.mirror = fun _ => none
  landed : system.host.accessibility.inFlight = false
  platform : system.platform = .idle ∨
    system.platform = .replacing system.host.accessibility.generation
  ui : Overtaken system.host system.ui

/-- The adapter shows the desired tree. -/
def Shown (host : HostWindowState) : Prop :=
  host.accessibility.adapter.isSome → ∀ tree, host.accessibility.desiredSemantics = some tree →
    mirrorOf entryKeys host.accessibility.bridge.differ.entries = mirrorOf entryKeys tree.entries

/-- Nothing is on its way: the adapter mirrors what the bridge has acknowledged, and
that is the desired tree unless it is about to be dispatched. -/
structure Settled (system : AccessibilitySystem) : Prop where
  undue : system.resetsDue = 0
  transaction : system.host.accessibility.bridge.transaction = none
  ordered : Ordered entryKeys system.host.accessibility.bridge.differ.entries
  mirrored : system.mirror = mirrorOf entryKeys system.host.accessibility.bridge.differ.entries
  platform : system.platform = .idle
  ui : match system.ui with
    | .idle | .publishing .. => system.host.accessibility.inFlight = false ∧ Shown system.host
    | .dispatching => system.host.accessibility.inFlight = false
    | .acknowledging _ success => success = true ∧ ∀ delivery ∈ system.platformQueue,
      delivery.publication.generation ≠ system.host.accessibility.publication
    | _ => False

/-- No acknowledgement of the batch has been sent. -/
def Unanswered (system : AccessibilitySystem) (generation : Nat) : Prop :=
  ∀ service other success, .acknowledge service other success ∈ system.uiQueue → other < generation

/-- All queued batches are older. -/
def Older (queue : List Delivery) (generation : Nat) : Prop :=
  ∀ delivery ∈ queue, delivery.publication.generation < generation

/-- Where the batch of the bridge's transaction is. The mirror is the one it was
computed against until the adapter has applied it. -/
inductive Place (system : AccessibilitySystem) (transaction : Transaction) (delivery : Delivery) :
    Prop where
  | claiming (ui : system.ui = .claiming delivery)
      (landed : system.host.accessibility.inFlight = false)
      (older : Older system.platformQueue transaction.generation)
      (unanswered : system.Unanswered transaction.generation) (platform : system.platform = .idle)
      (mirrored : system.mirror =
        mirrorOf entryKeys system.host.accessibility.bridge.differ.entries)
  | sending (ui : system.ui = .sending delivery)
      (older : Older system.platformQueue transaction.generation)
      (unanswered : system.Unanswered transaction.generation) (platform : system.platform = .idle)
      (mirrored : system.mirror =
        mirrorOf entryKeys system.host.accessibility.bridge.differ.entries)
  | queued (stale : List Delivery) (ui : Unburdened system.ui)
      (queue : system.platformQueue = stale ++ [delivery])
      (older : Older stale transaction.generation)
      (unanswered : system.Unanswered transaction.generation) (platform : system.platform = .idle)
      (mirrored : system.mirror =
        mirrorOf entryKeys system.host.accessibility.bridge.differ.entries)
  | reporting (ui : Unburdened system.ui) (older : Older system.platformQueue transaction.generation)
      (unanswered : system.Unanswered transaction.generation)
      (platform : system.platform = .reporting delivery.service transaction.generation true)
      (mirrored : system.mirror = mirrorOf entryKeys transaction.candidate.entries)
  | returned (ui : Unburdened system.ui) (older : Older system.platformQueue transaction.generation)
      (answer : .acknowledge delivery.service transaction.generation true ∈ system.uiQueue)
      (answers : ∀ service generation success,
        .acknowledge service generation success ∈ system.uiQueue →
          generation < transaction.generation ∨ success = true)
      (platform : system.platform = .idle)
      (mirrored : system.mirror = mirrorOf entryKeys transaction.candidate.entries)

/-- One batch is on its way to the adapter it was computed for. -/
structure Delivering (system : AccessibilitySystem) (transaction : Transaction)
    (delivery : Delivery) : Prop where
  undue : system.resetsDue = 0
  held : system.host.accessibility.bridge.transaction = some transaction
  flying : transaction.inFlight = true
  newest : transaction.generation + 1 = system.host.accessibility.bridge.nextGeneration
  ordered : Ordered entryKeys system.host.accessibility.bridge.differ.entries
  ordered_next : Ordered entryKeys transaction.candidate.entries
  update : transaction.update =
    script entryKeys system.host.accessibility.bridge.differ.entries transaction.candidate.entries
  publication : delivery.publication = ⟨transaction.generation, transaction.update⟩
  service : delivery.service = system.host.accessibility.generation
  adapter : system.host.accessibility.adapter = some delivery.adapter
  claimed : (∃ claimed, system.ui = .claiming claimed) ∨
    (system.host.accessibility.inFlight = true ∧
      system.host.accessibility.publication = transaction.generation ∧
      system.host.accessibility.publicationService = delivery.service)
  place : system.Place transaction delivery

/-- The window is alive and its adapter waits for its reset, is settled, or has one
batch on its way. -/
def Sound (system : AccessibilitySystem) : Prop :=
  system.Basic ∧ (system.Awaiting ∨ system.Settled ∨
    ∃ transaction delivery, system.Delivering transaction delivery)

/-- Whether a step keeps the order. A publication for a replaced service runs only
while the reset for the current one is still to come; a desired tree is dispatched
only after the reset for the current adapter; no counter is exhausted. -/
def keepsOrder (system : AccessibilitySystem) : Action → Bool
  | .runUi =>
    match system.uiQueue with
    | .publish serviceGeneration _ :: _ =>
      serviceGeneration = system.host.accessibility.generation || system.resetsDue ≠ 0
    | _ => true
  | .continueUi =>
    match system.ui with
    | .dispatching =>
      system.host.dispatchDesiredLocked.isNone ||
        ((system.resetsDue = 0) &&
          (system.host.accessibility.bridge.nextGeneration ≠ maxGeneration))
    | _ => true
  | .setAccessibilityAdapter _ => system.host.accessibility.generation ≠ maxGeneration
  | _ => true

/-- The system after the UI thread has touched its queue and the desired tree. -/
def atUi (system : AccessibilitySystem) (uiQueue : List SemanticsTask) (ui : SemanticsPoint)
    (desiredSemantics published : Option SemanticsTree) : AccessibilitySystem :=
  { system with
    uiQueue, ui, published
    host := { system.host with
      accessibility := { system.host.accessibility with desiredSemantics } } }

section AtUi
variable {system : AccessibilitySystem} {queue : List SemanticsTask} {ui : SemanticsPoint}
variable {desired published : Option SemanticsTree} {transaction : Transaction}
variable {delivery : Delivery}

theorem Basic.at_ui (basic : system.Basic) (tasks : ∀ task ∈ queue, task.Sound system.host)
    (publishing : ∀ generation tree, ui = .publishing generation tree → tree.Accepted)
    (accepted : ∀ tree, desired = some tree → tree.Accepted)
    (unpublished : desired = none → system.host.accessibility.desiredSemantics = none)
    (latest : lastTree queue desired = published) :
    (system.atUi queue ui desired published).Basic where
  running := basic.running
  delivering := basic.delivering
  retryPending := basic.retryPending
  retryRequested := basic.retryRequested
  tasks task queued := (tasks task queued).mono le_rfl le_rfl
  deliveries := basic.deliveries
  publishing := publishing
  accepted := accepted
  unpublished unset := basic.unpublished (unpublished unset)
  latest := latest

theorem resets_due_at_ui (same : queue.countP (SemanticsTask.resets system.host.accessibility.generation) =
      system.uiQueue.countP (SemanticsTask.resets system.host.accessibility.generation)) :
    (system.atUi queue ui desired published).resetsDue = system.resetsDue := by
  unfold resetsDue
  rw [← same]
  rfl

theorem Awaiting.at_ui (awaiting : system.Awaiting)
    (same : queue.countP (SemanticsTask.resets system.host.accessibility.generation) =
      system.uiQueue.countP (SemanticsTask.resets system.host.accessibility.generation))
    (overtaken : Unburdened ui) : (system.atUi queue ui desired published).Awaiting where
  due := (resets_due_at_ui same).trans awaiting.due
  empty := awaiting.empty
  landed := awaiting.landed
  platform := awaiting.platform
  ui := by cases ui <;> trivial

theorem Delivering.at_ui (delivering : system.Delivering transaction delivery)
    (free : Unburdened system.ui) (freed : Unburdened ui)
    (same : queue.countP (SemanticsTask.resets system.host.accessibility.generation) =
      system.uiQueue.countP (SemanticsTask.resets system.host.accessibility.generation))
    (answers : ∀ service generation success, .acknowledge service generation success ∈ queue →
      .acknowledge service generation success ∈ system.uiQueue)
    (answer : .acknowledge delivery.service transaction.generation true ∈ system.uiQueue →
      .acknowledge delivery.service transaction.generation true ∈ queue) :
    (system.atUi queue ui desired published).Delivering transaction delivery where
  undue := (resets_due_at_ui same).trans delivering.undue
  held := delivering.held
  flying := delivering.flying
  newest := delivering.newest
  ordered := delivering.ordered
  ordered_next := delivering.ordered_next
  update := delivering.update
  publication := delivering.publication
  service := delivering.service
  adapter := delivering.adapter
  claimed := by
    rcases delivering.claimed with ⟨claimed, claiming⟩ | flying
    · rw [claiming] at free
      cases free
    · exact Or.inr flying
  place := by
    cases delivering.place with
    | claiming claiming =>
      rw [claiming] at free
      cases free
    | sending sending =>
      rw [sending] at free
      cases free
    | queued stale _ at_end older unanswered platform mirrored =>
      exact .queued stale freed at_end older
        (fun _ _ _ queued => unanswered _ _ _ (answers _ _ _ queued)) platform mirrored
    | reporting _ older unanswered platform mirrored =>
      exact .reporting freed older (fun _ _ _ queued => unanswered _ _ _ (answers _ _ _ queued))
        platform mirrored
    | returned _ older held others platform mirrored =>
      exact .returned freed older (answer held)
        (fun _ _ _ queued => others _ _ _ (answers _ _ _ queued)) platform mirrored

theorem Settled.at_ui (settled : system.Settled)
    (same : queue.countP (SemanticsTask.resets system.host.accessibility.generation) =
      system.uiQueue.countP (SemanticsTask.resets system.host.accessibility.generation))
    (landed : system.host.accessibility.inFlight = false)
    (shown : ui = .dispatching ∨ ((ui = .idle ∨ ∃ generation tree, ui = .publishing generation tree) ∧
      Shown (system.atUi queue ui desired published).host)) :
    (system.atUi queue ui desired published).Settled where
  undue := (resets_due_at_ui same).trans settled.undue
  transaction := settled.transaction
  ordered := settled.ordered
  mirrored := settled.mirrored
  platform := settled.platform
  ui := by
    rcases shown with rfl | ⟨rfl | ⟨generation, tree, rfl⟩, shown⟩
    · exact landed
    · exact ⟨landed, shown⟩
    · exact ⟨landed, shown⟩

end AtUi

section Tasks
variable {system : AccessibilitySystem} {task : SemanticsTask} {rest : List SemanticsTask}

theorem ui_idle_iff : system.uiIdle = true ↔ system.ui = .idle := by
  unfold uiIdle
  cases system.ui <;> simp

/-- A batch on its way while the UI thread is free is marked as such. -/
theorem Delivering.marked {transaction : Transaction} {delivery : Delivery}
    (delivering : system.Delivering transaction delivery) (free : Unburdened system.ui) :
    system.host.accessibility.inFlight = true ∧
      system.host.accessibility.publication = transaction.generation ∧
      system.host.accessibility.publicationService = delivery.service := by
  rcases delivering.claimed with ⟨claimed, claiming⟩ | marked
  · rw [claiming] at free
    cases free
  · exact marked

/-- With the UI thread idle, a settled window has nothing in flight and shows the
desired tree. -/
theorem Settled.idle (settled : system.Settled) (idle : system.ui = .idle) :
    system.host.accessibility.inFlight = false ∧ Shown system.host := by
  have ui := settled.ui
  rw [idle] at ui
  exact ui

/-- Dropping a task that changes nothing. -/
theorem Sound.drop (sound : system.Sound) (idle : system.ui = .idle)
    (queued : system.uiQueue = task :: rest) (unpublishing : ∀ tree, task.desired tree = tree)
    (unresetting : task.resets system.host.accessibility.generation = false)
    (unanswering : ∀ transaction delivery, system.Delivering transaction delivery →
      task ≠ .acknowledge delivery.service transaction.generation true) :
    Sound { system with uiQueue := rest } := by
  obtain ⟨basic, phase⟩ := sound
  have free : Unburdened system.ui := by
    rw [idle]
    trivial
  have same : rest.countP (SemanticsTask.resets system.host.accessibility.generation) =
      system.uiQueue.countP (SemanticsTask.resets system.host.accessibility.generation) := by
    rw [queued, List.countP_cons_of_neg (by simp [unresetting])]
  have tail : ∀ other ∈ rest, other ∈ system.uiQueue := by
    intro other member
    rw [queued]
    exact List.mem_cons_of_mem _ member
  show (system.atUi rest system.ui system.host.accessibility.desiredSemantics
    system.published).Sound
  refine ⟨basic.at_ui (fun other member => basic.tasks other (tail other member)) basic.publishing
    basic.accepted (fun unset => unset) ?_, ?_⟩
  · rw [← basic.latest, queued, last_tree_cons, unpublishing]
  · rcases phase with awaiting | settled | ⟨transaction, delivery, delivering⟩
    · exact Or.inl (awaiting.at_ui same free)
    · obtain ⟨landed, shown⟩ := settled.idle idle
      exact Or.inr (Or.inl (settled.at_ui same landed (Or.inr ⟨Or.inl idle, shown⟩)))
    · refine Or.inr (Or.inr ⟨transaction, delivery, delivering.at_ui free free same
        (fun _ _ _ member => tail _ member) fun member => ?_⟩)
      rw [queued, List.mem_cons] at member
      rcases member with here | later
      · exact absurd here.symm (unanswering transaction delivery delivering)
      · exact later

theorem desire_semantics {host : HostWindowState} (running : host.running = true)
    (tree : SemanticsTree) (serviceGeneration : Nat) :
    host.desireSemanticsLocked tree serviceGeneration =
      (decide (host.accessibility.generation = serviceGeneration),
        { host with
          accessibility := { host.accessibility with desiredSemantics := some tree } }) := by
  rw [desireSemanticsLocked, if_neg (by simpa using running)]

/-- A publication runs: it replaces the desired tree, and is dispatched if its
service is still the current one. -/
theorem Sound.run_publish {serviceGeneration : Nat} {tree : SemanticsTree} (sound : system.Sound)
    (idle : system.ui = .idle) (queued : system.uiQueue = .publish serviceGeneration tree :: rest)
    (current : serviceGeneration = system.host.accessibility.generation ∨ system.resetsDue ≠ 0) :
    Sound ({ system with uiQueue := rest }.runSemanticsTask (.publish serviceGeneration tree)) := by
  obtain ⟨basic, phase⟩ := sound
  have free : Unburdened system.ui := by
    rw [idle]
    trivial
  have same : rest.countP (SemanticsTask.resets system.host.accessibility.generation) =
      system.uiQueue.countP (SemanticsTask.resets system.host.accessibility.generation) := by
    rw [queued, List.countP_cons_of_neg (by simp [SemanticsTask.resets])]
  have tail : ∀ other ∈ rest, other ∈ system.uiQueue := by
    intro other member
    rw [queued]
    exact List.mem_cons_of_mem _ member
  have accepted : tree.Accepted := by
    have sound := basic.tasks (.publish serviceGeneration tree) (by rw [queued]; exact List.mem_cons_self)
    exact sound
  have desired : ∀ ui, (∀ generation tree, ui ≠ .publishing generation tree) →
      (system.atUi rest ui (some tree) system.published).Basic := by
    intro ui elsewhere
    refine basic.at_ui (fun other member => basic.tasks other (tail other member))
      (fun _ _ at_point => absurd at_point (elsewhere _ _)) ?_ (fun unset => by cases unset) ?_
    · rintro other ⟨⟩
      exact accepted
    · rw [← basic.latest, queued]
      rfl
  simp only [runSemanticsTask]
  rw [desire_semantics basic.running]
  by_cases now : system.host.accessibility.generation = serviceGeneration
  · rw [decide_eq_true now]
    show (system.atUi rest .dispatching (some tree) system.published).Sound
    refine ⟨desired .dispatching (by simp), ?_⟩
    rcases phase with awaiting | settled | ⟨transaction, delivery, delivering⟩
    · exact Or.inl (awaiting.at_ui same trivial)
    · exact Or.inr (Or.inl (settled.at_ui same (settled.idle idle).1 (Or.inl rfl)))
    · refine Or.inr (Or.inr ⟨transaction, delivery, delivering.at_ui free trivial same
        (fun _ _ _ member => tail _ member) fun member => ?_⟩)
      rw [queued, List.mem_cons] at member
      rcases member with here | later
      · cases here
      · exact later
  · rw [decide_eq_false now]
    show (system.atUi rest system.ui (some tree) system.published).Sound
    refine ⟨desired system.ui (by rw [idle]; simp), Or.inl ?_⟩
    have due : system.resetsDue ≠ 0 := current.resolve_left fun same => now same.symm
    rcases phase with awaiting | settled | ⟨transaction, delivery, delivering⟩
    · exact awaiting.at_ui same free
    · exact absurd settled.undue due
    · exact absurd delivering.undue due

/-- The acknowledgement of the batch on its way makes its candidate the bridge's
differ, which is what the adapter mirrors by now. -/
theorem Delivering.answered {transaction : Transaction} {delivery : Delivery}
    (basic : system.Basic) (delivering : system.Delivering transaction delivery)
    (idle : system.ui = .idle)
    (queued : system.uiQueue = .acknowledge delivery.service transaction.generation true :: rest) :
    Sound ({ system with uiQueue := rest }.runSemanticsTask
      (.acknowledge delivery.service transaction.generation true)) := by
  obtain ⟨flying, publication, service⟩ := delivering.marked (by rw [idle]; trivial)
  have head : .acknowledge delivery.service transaction.generation true ∈ system.uiQueue := by
    rw [queued]
    exact List.mem_cons_self
  have tail : ∀ other ∈ rest, other ∈ system.uiQueue := by
    intro other member
    rw [queued]
    exact List.mem_cons_of_mem _ member
  have current : ¬ (¬ system.host.running = true ∨ ¬ system.host.accessibility.inFlight = true ∨
      system.host.accessibility.generation ≠ delivery.service ∨
      system.host.accessibility.publication ≠ transaction.generation ∨
      system.host.accessibility.publicationService ≠ delivery.service) := by
    simp [basic.running, flying, publication, service, delivering.service]
  have acknowledged : (system.host.accessibility.bridge.acknowledge transaction.generation).2 =
      { system.host.accessibility.bridge with
        differ := transaction.candidate, transaction := none } := by
    have flies : system.host.accessibility.bridge.flies transaction.generation = true := by
      simp [AccessibilityBridge.flies, delivering.held, delivering.flying]
    unfold AccessibilityBridge.acknowledge
    rw [delivering.held]
    dsimp only
    rw [if_pos flies]
  have ran : { system with uiQueue := rest }.runSemanticsTask
      (.acknowledge delivery.service transaction.generation true) =
      { system with
        uiQueue := rest
        ui := .acknowledging delivery.service true
        host := { system.host with
          accessibility := { system.host.accessibility with
            bridge := { system.host.accessibility.bridge with
              differ := transaction.candidate, transaction := none } } } } := by
    simp only [runSemanticsTask, acknowledgeLocked]
    rw [if_neg current, ← acknowledged]
    rfl
  rw [ran]
  refine ⟨⟨basic.running, basic.delivering, basic.retryPending, basic.retryRequested, ?_,
    basic.deliveries, (fun _ _ at_point => by cases at_point), basic.accepted, ?_, ?_⟩,
    Or.inr (Or.inl ⟨?_, rfl, delivering.ordered_next, ?_, ?_, rfl, ?_⟩)⟩
  · intro task member
    exact (basic.tasks task (tail task member)).mono le_rfl le_rfl
  · intro unset
    have nothing := (basic.unpublished unset).2
    rw [delivering.held] at nothing
    cases nothing
  · rw [← basic.latest, queued]
    rfl
  · have undue := delivering.undue
    rw [resetsDue, queued, List.countP_cons_of_neg (by simp [SemanticsTask.resets])] at undue
    exact undue
  all_goals
    cases delivering.place with
    | claiming claiming =>
      rw [idle] at claiming
      cases claiming
    | sending sending =>
      rw [idle] at sending
      cases sending
    | queued stale _ _ _ unanswered => exact absurd (unanswered _ _ _ head) (Nat.lt_irrefl _)
    | reporting _ _ unanswered => exact absurd (unanswered _ _ _ head) (Nat.lt_irrefl _)
    | returned _ older _ _ platform mirrored =>
      first
      | exact mirrored
      | exact platform
      | intro other member
        have behind := older other member
        rw [show system.host.accessibility.publication = transaction.generation from publication]
        omega

/-- An acknowledgement runs: it is the one awaited, or out of date. -/
theorem Sound.run_acknowledge {service generation : Nat} {success : Bool} (sound : system.Sound)
    (idle : system.ui = .idle)
    (queued : system.uiQueue = .acknowledge service generation success :: rest) :
    Sound ({ system with uiQueue := rest }.runSemanticsTask
      (.acknowledge service generation success)) := by
  obtain ⟨basic, phase⟩ := sound
  have head : .acknowledge service generation success ∈ system.uiQueue := by
    rw [queued]
    exact List.mem_cons_self
  have dropped : ¬ system.host.running = true ∨ ¬ system.host.accessibility.inFlight = true ∨
      system.host.accessibility.generation ≠ service ∨
      system.host.accessibility.publication ≠ generation ∨
      system.host.accessibility.publicationService ≠ service →
      (∀ transaction delivery, system.Delivering transaction delivery →
        SemanticsTask.acknowledge service generation success ≠
          .acknowledge delivery.service transaction.generation true) →
      Sound ({ system with uiQueue := rest }.runSemanticsTask
        (.acknowledge service generation success)) := by
    intro stale unanswering
    simp only [runSemanticsTask, acknowledgeLocked]
    rw [if_pos stale]
    exact Sound.drop ⟨basic, phase⟩ idle queued (fun _ => rfl) rfl unanswering
  rcases phase with awaiting | settled | ⟨transaction, delivery, delivering⟩
  · refine dropped (Or.inr (Or.inl (by simp [awaiting.landed]))) fun _ _ delivering => ?_
    have undue := delivering.undue
    rw [awaiting.due] at undue
    cases undue
  · refine dropped (Or.inr (Or.inl (by simp [(settled.idle idle).1]))) fun _ _ delivering => ?_
    have held := delivering.held
    rw [settled.transaction] at held
    cases held
  · obtain ⟨flying, publication, at_service⟩ := delivering.marked (by rw [idle]; trivial)
    have unique : ∀ other delivery', system.Delivering other delivery' →
        other = transaction ∧ delivery'.service = delivery.service := by
      intro other delivery' delivering'
      refine ⟨Option.some.inj (delivering'.held.symm.trans delivering.held), ?_⟩
      rw [delivering'.service, delivering.service]
    by_cases answer : SemanticsTask.acknowledge service generation success =
        .acknowledge delivery.service transaction.generation true
    · cases answer
      exact delivering.answered basic idle queued
    · refine dropped ?_ fun other delivery' delivering' same => ?_
      · by_cases ours : generation = transaction.generation
        · subst ours
          have confirmed : success = true := by
            cases delivering.place with
            | claiming claiming =>
              rw [idle] at claiming
              cases claiming
            | sending sending =>
              rw [idle] at sending
              cases sending
            | queued stale _ _ _ unanswered => exact absurd (unanswered _ _ _ head) (Nat.lt_irrefl _)
            | reporting _ _ unanswered => exact absurd (unanswered _ _ _ head) (Nat.lt_irrefl _)
            | returned _ _ _ answers =>
              exact (answers _ _ _ head).resolve_left (Nat.lt_irrefl _)
          refine Or.inr (Or.inr (Or.inl fun same => answer ?_))
          rw [confirmed, delivering.service, same]
        · refine Or.inr (Or.inr (Or.inr (Or.inl ?_)))
          rw [publication]
          exact fun same => ours same.symm
      · obtain ⟨rfl, same_service⟩ := unique other delivery' delivering'
        rw [same_service] at same
        exact answer same

/-- The reset for an adapter runs: for the current one the bridge starts anew. -/
theorem Sound.run_reset {service : Nat} (sound : system.Sound) (idle : system.ui = .idle)
    (queued : system.uiQueue = .reset service :: rest) :
    Sound ({ system with uiQueue := rest }.runSemanticsTask (.reset service)) := by
  obtain ⟨basic, phase⟩ := sound
  by_cases current : system.host.accessibility.generation = service
  · subst current
    have counted : system.resetsDue =
        rest.countP (SemanticsTask.resets system.host.accessibility.generation) + 1 +
          if system.platform = .replacing system.host.accessibility.generation then 1 else 0 := by
      rw [resetsDue, queued, List.countP_cons_of_pos (by simp [SemanticsTask.resets])]
    rcases phase with awaiting | settled | ⟨transaction, delivery, delivering⟩
    · have due := awaiting.due
      have unposted : system.platform = .idle := by
        rcases awaiting.platform with idle | replacing
        · exact idle
        · rw [counted, if_pos replacing] at due
          omega
      have ran : { system with uiQueue := rest }.runSemanticsTask
          (.reset system.host.accessibility.generation) =
          { system with
            uiQueue := rest
            ui := .dispatching
            host := { system.host with
              accessibility := { system.host.accessibility with
                inFlight := false, retryPending := false, retryRequested := false
                publication := 0, publicationService := 0
                bridge := { system.host.accessibility.bridge with
                  differ := {}, transaction := none } } } } := by
        simp only [runSemanticsTask, resetAccessibilityLocked]
        rw [if_neg (by simp [basic.running])]
        simp only [AccessibilityBridge.resetAcknowledged]
        rw [if_neg (by simp [basic.delivering])]
        rfl
      rw [ran]
      refine ⟨⟨basic.running, basic.delivering, rfl, rfl, ?_, basic.deliveries,
        (fun _ _ at_point => by cases at_point), basic.accepted, fun _ => ⟨rfl, rfl⟩, ?_⟩,
        Or.inr (Or.inl ⟨?_, rfl, ⟨List.nodup_nil, trivial⟩, ?_, unposted, rfl⟩)⟩
      · intro task member
        refine (basic.tasks task ?_).mono le_rfl le_rfl
        rw [queued]
        exact List.mem_cons_of_mem _ member
      · rw [← basic.latest, queued]
        rfl
      · show rest.countP (SemanticsTask.resets system.host.accessibility.generation) + _ = 0
        rw [show (if system.platform = .replacing system.host.accessibility.generation then 1 else 0) =
          0 by rw [unposted]; rfl]
        omega
      · rw [awaiting.empty]
        rfl
    · have undue := settled.undue
      omega
    · have undue := delivering.undue
      omega
  · simp only [runSemanticsTask, resetAccessibilityLocked]
    rw [if_pos (Or.inr current)]
    refine Sound.drop ⟨basic, phase⟩ idle queued (fun _ => rfl) ?_ fun _ _ _ => by simp
    exact decide_eq_false fun same => current same.symm

end Tasks

section Ui
variable {system : AccessibilitySystem}

/-- The post of `publish_semantics`. -/
theorem Sound.posted {serviceGeneration : Nat} {tree : SemanticsTree} (sound : system.Sound)
    (publishing : system.ui = .publishing serviceGeneration tree) :
    (system.atUi (system.uiQueue ++ [.publish serviceGeneration tree]) .idle
      system.host.accessibility.desiredSemantics (some tree)).Sound := by
  obtain ⟨basic, phase⟩ := sound
  have free : Unburdened system.ui := by
    rw [publishing]
    trivial
  have same : (system.uiQueue ++ [SemanticsTask.publish serviceGeneration tree]).countP
      (SemanticsTask.resets system.host.accessibility.generation) =
      system.uiQueue.countP (SemanticsTask.resets system.host.accessibility.generation) := by
    simp [SemanticsTask.resets]
  refine ⟨basic.at_ui (fun task member => ?_) (fun _ _ at_point => by cases at_point) basic.accepted
    (fun unset => unset) (last_tree_append _ _ _), ?_⟩
  · rcases List.mem_append.mp member with before | last
    · exact basic.tasks task before
    · cases List.mem_singleton.mp last
      exact basic.publishing _ _ publishing
  · rcases phase with awaiting | settled | ⟨transaction, delivery, delivering⟩
    · exact Or.inl (awaiting.at_ui same trivial)
    · have ui := settled.ui
      rw [publishing] at ui
      exact Or.inr (Or.inl (settled.at_ui same ui.1 (Or.inr ⟨Or.inl rfl, ui.2⟩)))
    · refine Or.inr (Or.inr ⟨transaction, delivery, delivering.at_ui free trivial same ?_ ?_⟩)
      · intro service generation success member
        simpa using member
      · intro member
        exact List.mem_append_left _ member

/-- What the section of `dispatch_desired_semantics` lets through. -/
theorem dispatch_desired_some {host : HostWindowState} {desired : SemanticsTree}
    {service adapter : Nat} (dispatched : host.dispatchDesiredLocked = some (desired, service, adapter)) :
    host.accessibility.inFlight = false ∧ host.accessibility.adapter = some adapter ∧
      host.accessibility.desiredSemantics = some desired ∧
      service = host.accessibility.generation := by
  unfold dispatchDesiredLocked at dispatched
  split at dispatched
  · cases dispatched
  · rename_i free
    split at dispatched
    · rename_i held wanted
      cases dispatched
      exact ⟨by simpa using (not_or.mp (not_or.mp free).2).1, held, wanted, rfl⟩
    · cases dispatched

theorem dispatch_desired_none {host : HostWindowState} (running : host.running = true)
    (landed : host.accessibility.inFlight = false) (unretried : host.accessibility.retryPending = false)
    (nothing : host.dispatchDesiredLocked = none) : Shown host := by
  unfold dispatchDesiredLocked at nothing
  rw [if_neg (by simp [running, landed, unretried])] at nothing
  intro installed tree desired
  obtain ⟨adapter, installed⟩ := Option.isSome_iff_exists.mp installed
  rw [installed, desired] at nothing
  cases nothing

/-- Nothing is dispatched, or nothing differs. -/
theorem Sound.undispatched (sound : system.Sound) (dispatching : system.ui = .dispatching)
    (shown : system.Settled → Shown system.host) :
    Sound { system with ui := .idle } := by
  obtain ⟨basic, phase⟩ := sound
  have free : Unburdened system.ui := by
    rw [dispatching]
    trivial
  show (system.atUi system.uiQueue .idle system.host.accessibility.desiredSemantics
    system.published).Sound
  refine ⟨basic.at_ui basic.tasks (fun _ _ at_point => by cases at_point) basic.accepted
    (fun unset => unset) basic.latest, ?_⟩
  rcases phase with awaiting | settled | ⟨transaction, delivery, delivering⟩
  · exact Or.inl (awaiting.at_ui rfl trivial)
  · have landed := settled.ui
    rw [dispatching] at landed
    exact Or.inr (Or.inl (settled.at_ui rfl landed (Or.inr ⟨Or.inl rfl, shown settled⟩)))
  · exact Or.inr (Or.inr ⟨transaction, delivery, delivering.at_ui free trivial rfl
      (fun _ _ _ member => member) fun member => member⟩)

/-- The bridge of a settled window prepares an accepted tree: nothing differs, or the
script to it is the next batch. -/
theorem prepare_cases {bridge : AccessibilityBridge} {tree : SemanticsTree}
    (delivering : bridge.delivering = false) (transaction : bridge.transaction = none)
    (accepted : tree.Accepted) (left : bridge.nextGeneration ≠ maxGeneration) :
    (script entryKeys bridge.differ.entries tree.entries = [] ∧
      bridge.prepare tree = .ok (none, bridge)) ∨
    bridge.prepare tree = .ok
      (some ⟨bridge.nextGeneration, script entryKeys bridge.differ.entries tree.entries⟩,
        { bridge with
          transaction := some ⟨bridge.nextGeneration, ⟨tree.entries⟩,
            script entryKeys bridge.differ.entries tree.entries, true⟩
          nextGeneration := bridge.nextGeneration + 1 }) := by
  unfold AccessibilityBridge.prepare
  rw [if_neg (by simp [delivering, transaction]), update_eq_script _ accepted]
  cases quiet : (script entryKeys bridge.differ.entries tree.entries).isEmpty with
  | true => exact Or.inl ⟨List.isEmpty_iff.mp quiet, rfl⟩
  | false =>
    refine Or.inr ?_
    simp only [Bool.false_eq_true, if_false, AccessibilityBridge.beginTransaction, quiet]
    rw [if_neg left]

/-- The desired tree is dispatched to an adapter whose bridge has been reset. -/
theorem Sound.dispatched (sound : system.Sound) (dispatching : system.ui = .dispatching)
    (kept : system.keepsOrder .continueUi = true) : system.dispatchDesired.Sound := by
  obtain ⟨basic, phase⟩ := sound
  unfold dispatchDesired
  cases dispatched : system.host.dispatchDesiredLocked with
  | none =>
    refine Sound.undispatched ⟨basic, phase⟩ dispatching fun settled => ?_
    have landed := settled.ui
    rw [dispatching] at landed
    exact dispatch_desired_none basic.running landed basic.retryPending dispatched
  | some found =>
    obtain ⟨desired, service, adapter⟩ := found
    obtain ⟨landed, installed, wanted, rfl⟩ := dispatch_desired_some dispatched
    have accepted := basic.accepted desired wanted
    simp only [keepsOrder, dispatching, dispatched, Option.isNone_some, Bool.false_or,
      Bool.and_eq_true, decide_eq_true_eq] at kept
    obtain ⟨undue, left⟩ := kept
    rcases phase with awaiting | settled | ⟨transaction, delivery, delivering⟩
    · have due := awaiting.due
      omega
    · obtain ⟨quiet, prepared⟩ | prepared :=
        prepare_cases basic.delivering settled.transaction accepted left
      · dsimp only
        rw [prepared]
        refine Sound.undispatched ⟨basic, Or.inr (Or.inl settled)⟩ dispatching fun _ => ?_
        intro _ tree again
        cases wanted.symm.trans again
        have unchanged := script_replay settled.ordered (flatten_tree_ok accepted).2
        rw [quiet, replay] at unchanged
        exact Option.some.inj unchanged
      · dsimp only
        rw [prepared]
        refine ⟨⟨basic.running, basic.delivering, basic.retryPending, basic.retryRequested, ?_, ?_,
          (fun _ _ at_point => by cases at_point), basic.accepted, ?_, basic.latest⟩,
          Or.inr (Or.inr ⟨_, ⟨⟨system.host.accessibility.bridge.nextGeneration, _⟩,
            system.host.accessibility.generation, adapter⟩, ⟨undue, rfl, rfl, rfl, settled.ordered,
            (flatten_tree_ok accepted).2, rfl, rfl, rfl, installed, Or.inl ⟨_, rfl⟩,
            .claiming rfl landed basic.deliveries ?_ settled.platform settled.mirrored⟩⟩)⟩
        · intro task member
          exact (basic.tasks task member).mono (Nat.le_succ _) le_rfl
        · intro delivery member
          exact Nat.lt_succ_of_lt (basic.deliveries delivery member)
        · intro unset
          rw [show system.host.accessibility.desiredSemantics = none from unset] at wanted
          cases wanted
        · intro service generation success member
          exact basic.tasks _ member
    · obtain ⟨flying, _⟩ := delivering.marked (by rw [dispatching]; trivial)
      rw [landed] at flying
      cases flying

/-- The batch is taken for delivery, or its adapter has been replaced. -/
theorem Sound.claimed {delivery : Delivery} {next : AccessibilitySystem} (sound : system.Sound)
    (claiming : system.ui = .claiming delivery) (stepped : system.continueUi = some next) :
    next.Sound := by
  obtain ⟨basic, phase⟩ := sound
  simp only [continueUi, claiming] at stepped
  rcases phase with awaiting | settled | ⟨transaction, delivery', delivering⟩
  · have overtaken := awaiting.ui
    rw [claiming] at overtaken
    have replaced : ¬ system.host.running = true ∨
        system.host.accessibility.adapter ≠ some delivery.adapter ∨
        system.host.accessibility.generation ≠ delivery.service ∨
        system.host.accessibility.inFlight = true :=
      Or.inr (Or.inr (Or.inl (Nat.ne_of_gt overtaken.1)))
    rw [claimDeliveryLocked, if_pos replaced] at stepped
    cases stepped
    have rejected : ∀ generation,
        (system.host.accessibility.bridge.reject generation).2.delivering = false ∧
        (system.host.accessibility.bridge.reject generation).2.nextGeneration =
          system.host.accessibility.bridge.nextGeneration ∧
        (system.host.accessibility.bridge.reject generation).2.differ =
          system.host.accessibility.bridge.differ ∧
        (system.host.accessibility.bridge.transaction = none →
          (system.host.accessibility.bridge.reject generation).2.transaction = none) := by
      intro generation
      unfold AccessibilityBridge.reject
      split
      · rename_i none_held
        exact ⟨basic.delivering, rfl, rfl, fun _ => none_held⟩
      · rename_i transaction held
        split
        · exact ⟨basic.delivering, rfl, rfl, fun nothing => by rw [held] at nothing; cases nothing⟩
        · exact ⟨basic.delivering, rfl, rfl, fun nothing => nothing⟩
    obtain ⟨undelivering, generations, differ, transaction⟩ :=
      rejected delivery.publication.generation
    refine ⟨⟨basic.running, undelivering, basic.retryPending, basic.retryRequested, ?_, ?_,
      (fun _ _ at_point => by cases at_point), basic.accepted, ?_, basic.latest⟩,
      Or.inl ⟨awaiting.due, awaiting.empty, awaiting.landed, awaiting.platform, trivial⟩⟩
    · intro task member
      exact (basic.tasks task member).mono (le_of_eq generations.symm) le_rfl
    · intro other member
      exact Nat.lt_of_lt_of_eq (basic.deliveries other member) generations.symm
    · intro unset
      obtain ⟨entries, nothing⟩ := basic.unpublished unset
      exact ⟨(congrArg SemanticsDiffer.entries differ).trans entries, transaction nothing⟩
  · have ui := settled.ui
    rw [claiming] at ui
    cases ui
  · cases delivering.place with
    | claiming at_claim landed older unanswered platform mirrored =>
      rw [claiming] at at_claim
      cases at_claim
      rw [claimDeliveryLocked, if_neg (by simp [basic.running, delivering.adapter,
        delivering.service, landed])] at stepped
      cases stepped
      refine ⟨⟨basic.running, basic.delivering, basic.retryPending, basic.retryRequested, ?_,
        basic.deliveries, (fun _ _ at_point => by cases at_point), basic.accepted, basic.unpublished,
        basic.latest⟩, Or.inr (Or.inr ⟨transaction, delivery, ⟨delivering.undue, delivering.held,
          delivering.flying, delivering.newest, delivering.ordered, delivering.ordered_next,
          delivering.update, delivering.publication, delivering.service, delivering.adapter,
          Or.inr ⟨rfl, ?_, rfl⟩, .sending rfl older unanswered platform mirrored⟩⟩)⟩
      · intro task member
        exact (basic.tasks task member).mono le_rfl le_rfl
      · exact congrArg AccessibilityPublication.generation delivering.publication
    | sending sending =>
      rw [claiming] at sending
      cases sending
    | queued _ free | reporting free | returned free =>
      rw [claiming] at free
      cases free

/-- The batch is posted to the platform executor. -/
theorem Sound.sent {delivery : Delivery} (sound : system.Sound)
    (sending : system.ui = .sending delivery) :
    Sound { system with platformQueue := system.platformQueue ++ [delivery], ui := .idle } := by
  obtain ⟨basic, phase⟩ := sound
  have posted : delivery.publication.generation <
      system.host.accessibility.bridge.nextGeneration ∧
      (system.Awaiting ∨ ∃ transaction, system.Delivering transaction delivery) := by
    rcases phase with awaiting | settled | ⟨transaction, delivery', delivering⟩
    · have overtaken := awaiting.ui
      rw [sending] at overtaken
      exact ⟨overtaken, Or.inl awaiting⟩
    · have ui := settled.ui
      rw [sending] at ui
      cases ui
    · cases delivering.place with
      | claiming claiming =>
        rw [sending] at claiming
        cases claiming
      | sending at_send =>
        rw [sending] at at_send
        cases at_send
        refine ⟨?_, Or.inr ⟨transaction, delivering⟩⟩
        rw [← delivering.newest, delivering.publication]
        exact Nat.lt_succ_self _
      | queued _ free | reporting free | returned free =>
        rw [sending] at free
        cases free
  obtain ⟨prepared, phase⟩ := posted
  refine ⟨⟨basic.running, basic.delivering, basic.retryPending, basic.retryRequested, basic.tasks,
    ?_, (fun _ _ at_point => by cases at_point), basic.accepted, basic.unpublished, basic.latest⟩, ?_⟩
  · intro other member
    rcases List.mem_append.mp member with before | last
    · exact basic.deliveries other before
    · cases List.mem_singleton.mp last
      exact prepared
  rcases phase with awaiting | ⟨transaction, delivering⟩
  · exact Or.inl ⟨awaiting.due, awaiting.empty, awaiting.landed, awaiting.platform, trivial⟩
  · cases delivering.place with
    | sending _ older unanswered platform mirrored =>
      refine Or.inr (Or.inr ⟨transaction, delivery, ⟨delivering.undue, delivering.held,
        delivering.flying, delivering.newest, delivering.ordered, delivering.ordered_next,
        delivering.update, delivering.publication, delivering.service, delivering.adapter, ?_,
        .queued system.platformQueue trivial rfl older unanswered platform mirrored⟩⟩)
      rcases delivering.claimed with ⟨claimed, claiming⟩ | marked
      · rw [sending] at claiming
        cases claiming
      · exact Or.inr marked
    | claiming claiming =>
      rw [sending] at claiming
      cases claiming
    | queued _ free | reporting free | returned free =>
      rw [sending] at free
      cases free

/-- After an acknowledgement the desired tree is looked at again. -/
theorem Sound.acknowledged {service : Nat} {success : Bool} {next : AccessibilitySystem}
    (sound : system.Sound) (acknowledging : system.ui = .acknowledging service success)
    (stepped : system.continueUi = some next) : next.Sound := by
  obtain ⟨basic, phase⟩ := sound
  simp only [continueUi, acknowledging, deliveryDoneLocked] at stepped
  have phase' : success = true ∧ (system.Awaiting ∨ system.Settled) := by
    rcases phase with awaiting | settled | ⟨transaction, delivery, delivering⟩
    · have overtaken := awaiting.ui
      rw [acknowledging] at overtaken
      exact ⟨overtaken, Or.inl awaiting⟩
    · have ui := settled.ui
      rw [acknowledging] at ui
      exact ⟨ui.1, Or.inr settled⟩
    · cases delivering.place with
      | claiming claiming =>
        rw [acknowledging] at claiming
        cases claiming
      | sending sending =>
        rw [acknowledging] at sending
        cases sending
      | queued _ free | reporting free | returned free =>
        rw [acknowledging] at free
        cases free
  obtain ⟨rfl, phase'⟩ := phase'
  cases stepped
  refine ⟨⟨basic.running, basic.delivering, rfl, rfl, ?_, basic.deliveries,
    (fun _ _ at_point => by cases at_point), basic.accepted, basic.unpublished, basic.latest⟩, ?_⟩
  · intro task member
    exact (basic.tasks task member).mono le_rfl le_rfl
  · rcases phase' with awaiting | settled
    · exact Or.inl ⟨awaiting.due, awaiting.empty, rfl, awaiting.platform, trivial⟩
    · exact Or.inr (Or.inl ⟨settled.undue, settled.transaction, settled.ordered, settled.mirrored,
        settled.platform, rfl⟩)

end Ui

section Platform
variable {system : AccessibilitySystem}

/-- Whatever the UI thread holds, the next adapter overtakes it. -/
theorem Sound.overtaken {host : HostWindowState} (sound : system.Sound)
    (bridge : host.accessibility.bridge = system.host.accessibility.bridge)
    (later : system.host.accessibility.generation < host.accessibility.generation) :
    Overtaken host system.ui := by
  obtain ⟨_, awaiting | settled | ⟨transaction, delivery, delivering⟩⟩ := sound
  · have overtaken := awaiting.ui
    cases point : system.ui with
    | idle | publishing | dispatching => trivial
    | claiming delivery =>
      rw [point] at overtaken
      refine ⟨Nat.lt_trans overtaken.1 later, ?_⟩
      rw [bridge]
      exact overtaken.2
    | sending delivery =>
      rw [point] at overtaken
      show _ < host.accessibility.bridge.nextGeneration
      rw [bridge]
      exact overtaken
    | acknowledging | retrying | clearingRetry =>
      rw [point] at overtaken
      exact overtaken
  · have ui := settled.ui
    cases point : system.ui with
    | idle | publishing | dispatching => trivial
    | acknowledging =>
      rw [point] at ui
      exact ui.1
    | claiming | sending | retrying | clearingRetry =>
      rw [point] at ui
      cases ui
  · have prepared : delivery.publication.generation < host.accessibility.bridge.nextGeneration := by
      rw [bridge, ← delivering.newest, delivering.publication]
      exact Nat.lt_succ_self _
    cases delivering.place with
    | claiming claiming =>
      rw [claiming]
      refine ⟨?_, prepared⟩
      rw [delivering.service]
      exact later
    | sending sending =>
      rw [sending]
      exact prepared
    | queued _ free | reporting free | returned free =>
      cases point : system.ui with
      | idle | publishing | dispatching => trivial
      | claiming | sending | acknowledging | retrying | clearingRetry =>
        rw [point] at free
        cases free

/-- A new adapter is installed: it is empty and its reset is due. -/
theorem Sound.replaced (sound : system.Sound) (adapter : Option Nat)
    (left : system.host.accessibility.generation ≠ maxGeneration) :
    (system.setAccessibilityAdapter adapter).Sound := by
  have basic := sound.1
  unfold setAccessibilityAdapter setAccessibilityAdapterLocked
  rw [if_neg (by simpa using basic.running), if_neg left]
  have later : system.host.accessibility.generation < system.host.accessibility.generation + 1 :=
    Nat.lt_succ_self _
  refine ⟨⟨basic.running, basic.delivering, rfl, rfl, ?_, basic.deliveries, basic.publishing,
    basic.accepted, basic.unpublished, basic.latest⟩,
    Or.inl ⟨?_, rfl, rfl, Or.inr rfl, sound.overtaken rfl later⟩⟩
  · intro task member
    exact (basic.tasks task member).mono le_rfl (Nat.le_succ _)
  · have fresh : system.uiQueue.countP
        (SemanticsTask.resets (system.host.accessibility.generation + 1)) = 0 := by
      rw [List.countP_eq_zero]
      intro task member resets
      have known := basic.tasks task member
      cases task with
      | publish | acknowledge => cases resets
      | reset service =>
        have same : service = system.host.accessibility.generation + 1 := of_decide_eq_true resets
        have known : service ≤ system.host.accessibility.generation := known
        omega
    show system.uiQueue.countP (SemanticsTask.resets (system.host.accessibility.generation + 1)) +
      (if _ then 1 else 0) = 1
    rw [fresh, if_pos rfl]

/-- The platform thread posts the reset for the new adapter. -/
theorem Sound.reset_posted {service : Nat} (sound : system.Sound)
    (replacing : system.platform = .replacing service) :
    Sound { system with uiQueue := system.uiQueue ++ [.reset service], platform := .idle } := by
  obtain ⟨basic, phase⟩ := sound
  have awaiting : system.Awaiting ∧ service = system.host.accessibility.generation := by
    rcases phase with awaiting | settled | ⟨transaction, delivery, delivering⟩
    · refine ⟨awaiting, ?_⟩
      rcases awaiting.platform with idle | current
      · rw [replacing] at idle
        cases idle
      · rw [replacing] at current
        cases current
        rfl
    · have idle := settled.platform
      rw [replacing] at idle
      cases idle
    · cases delivering.place with
      | claiming _ _ _ _ idle | sending _ _ _ idle | queued _ _ _ _ _ idle | reporting _ _ _ idle
      | returned _ _ _ _ idle =>
        rw [replacing] at idle
        cases idle
  obtain ⟨awaiting, rfl⟩ := awaiting
  refine ⟨⟨basic.running, basic.delivering, basic.retryPending, basic.retryRequested, ?_,
    basic.deliveries, basic.publishing, basic.accepted, basic.unpublished, ?_⟩,
    Or.inl ⟨?_, awaiting.empty, awaiting.landed, Or.inl rfl, awaiting.ui⟩⟩
  · intro task member
    rcases List.mem_append.mp member with before | last
    · exact basic.tasks task before
    · cases List.mem_singleton.mp last
      exact le_rfl
  · show lastTree (system.uiQueue ++ [_]) _ = _
    rw [last_tree_append]
    exact basic.latest
  · have due := awaiting.due
    rw [resetsDue, if_pos replacing] at due
    show (system.uiQueue ++ [SemanticsTask.reset _]).countP
      (SemanticsTask.resets system.host.accessibility.generation) + 0 = 1
    rw [List.countP_append, List.countP_cons_of_pos (by simp [SemanticsTask.resets]),
      List.countP_nil]
    omega

/-- The platform thread posts the acknowledgement. -/
theorem Sound.report_posted {service generation : Nat} {success : Bool} (sound : system.Sound)
    (reporting : system.platform = .reporting service generation success) :
    Sound { system with
      uiQueue := system.uiQueue ++ [.acknowledge service generation success]
      platform := .idle } := by
  obtain ⟨basic, phase⟩ := sound
  rcases phase with awaiting | settled | ⟨transaction, delivery, delivering⟩
  · rcases awaiting.platform with point | point
    all_goals
      rw [reporting] at point
      cases point
  · have idle := settled.platform
    rw [reporting] at idle
    cases idle
  · cases delivering.place with
    | claiming _ _ _ _ idle | sending _ _ _ idle | queued _ _ _ _ _ idle | returned _ _ _ _ idle =>
      rw [reporting] at idle
      cases idle
    | reporting free older unanswered at_report mirrored =>
      rw [reporting] at at_report
      cases at_report
      refine ⟨⟨basic.running, basic.delivering, basic.retryPending, basic.retryRequested, ?_,
        basic.deliveries, basic.publishing, basic.accepted, basic.unpublished, ?_⟩,
        Or.inr (Or.inr ⟨transaction, delivery, ⟨?_, delivering.held, delivering.flying,
          delivering.newest, delivering.ordered, delivering.ordered_next, delivering.update,
          delivering.publication, delivering.service, delivering.adapter, delivering.claimed,
          .returned free older (List.mem_append_right _ List.mem_cons_self) ?_ rfl mirrored⟩⟩)⟩
      · intro task member
        rcases List.mem_append.mp member with before | last
        · exact basic.tasks task before
        · cases List.mem_singleton.mp last
          show transaction.generation < system.host.accessibility.bridge.nextGeneration
          rw [← delivering.newest]
          exact Nat.lt_succ_self _
      · show lastTree (system.uiQueue ++ [_]) _ = _
        rw [last_tree_append]
        exact basic.latest
      · have undue := delivering.undue
        rw [resetsDue, reporting] at undue
        show (system.uiQueue ++ [SemanticsTask.acknowledge _ _ _]).countP _ + 0 = 0
        rw [List.countP_append, List.countP_cons_of_neg (by simp [SemanticsTask.resets]),
          List.countP_nil]
        exact undue
      · intro service generation success member
        rcases List.mem_append.mp member with before | last
        · exact Or.inl (unanswered _ _ _ before)
        · cases List.mem_singleton.mp last
          exact Or.inr rfl

/-- The batch moves on without touching the UI side. -/
theorem Delivering.moved {transaction : Transaction} {delivery : Delivery}
    (delivering : system.Delivering transaction delivery) {platformQueue : List Delivery}
    {platform : AdapterPoint} {mirror : Mirror Nat SemanticsEntry}
    (unreplaced : platform ≠ .replacing system.host.accessibility.generation)
    (place : Place { system with platformQueue, platform, mirror } transaction delivery) :
    Delivering { system with platformQueue, platform, mirror } transaction delivery where
  undue := by
    have undue := delivering.undue
    rw [resetsDue, Nat.add_eq_zero_iff] at undue
    show system.uiQueue.countP _ + (if _ then 1 else 0) = 0
    rw [undue.1, if_neg unreplaced]
  held := delivering.held
  flying := delivering.flying
  newest := delivering.newest
  ordered := delivering.ordered
  ordered_next := delivering.ordered_next
  update := delivering.update
  publication := delivering.publication
  service := delivering.service
  adapter := delivering.adapter
  claimed := delivering.claimed
  place := place

/-- A delivery task runs: the adapter applies the batch on its way, and ignores one
that is out of date. -/
theorem Sound.run_delivery {delivery : Delivery} {rest : List Delivery} (sound : system.Sound)
    (idle : system.platform = .idle) (queued : system.platformQueue = delivery :: rest) :
    Sound ({ system with platformQueue := rest }.runDelivery delivery) := by
  obtain ⟨basic, phase⟩ := sound
  have tail : ∀ other ∈ rest, other ∈ system.platformQueue := by
    intro other member
    rw [queued]
    exact List.mem_cons_of_mem _ member
  have head : delivery ∈ system.platformQueue := by
    rw [queued]
    exact List.mem_cons_self
  have popped : Basic { system with platformQueue := rest } :=
    ⟨basic.running, basic.delivering, basic.retryPending, basic.retryRequested, basic.tasks,
      fun other member => basic.deliveries other (tail other member), basic.publishing,
      basic.accepted, basic.unpublished, basic.latest⟩
  have dropped : ¬ system.host.deliveryCurrentLocked delivery = true →
      { system with platformQueue := rest }.runDelivery delivery =
        { system with platformQueue := rest } := by
    intro stale
    unfold runDelivery
    rw [if_pos stale]
  have other_batch : system.host.accessibility.publication ≠ delivery.publication.generation →
      ¬ system.host.deliveryCurrentLocked delivery = true := by
    intro different
    simp [deliveryCurrentLocked, different]
  have landed_batch : system.host.accessibility.inFlight = false →
      ¬ system.host.deliveryCurrentLocked delivery = true := by
    intro landed
    simp [deliveryCurrentLocked, landed]
  rcases phase with awaiting | settled | ⟨transaction, flown, delivering⟩
  · rw [dropped (landed_batch awaiting.landed)]
    exact ⟨popped, Or.inl ⟨awaiting.due, awaiting.empty, awaiting.landed, awaiting.platform,
      awaiting.ui⟩⟩
  · have ui := settled.ui
    have stale : ¬ system.host.deliveryCurrentLocked delivery = true := by
      cases point : system.ui with
      | idle | publishing =>
        rw [point] at ui
        exact landed_batch ui.1
      | dispatching =>
        rw [point] at ui
        exact landed_batch ui
      | acknowledging =>
        rw [point] at ui
        exact other_batch fun same => ui.2 delivery head same.symm
      | claiming | sending | retrying | clearingRetry =>
        rw [point] at ui
        cases ui
    rw [dropped stale]
    refine ⟨popped, Or.inr (Or.inl ⟨settled.undue, settled.transaction, settled.ordered,
      settled.mirrored, settled.platform, ?_⟩)⟩
    cases point : system.ui with
    | idle | publishing | dispatching | claiming | sending | retrying | clearingRetry =>
      rw [point] at ui
      exact ui
    | acknowledging =>
      rw [point] at ui
      exact ⟨ui.1, fun other member => ui.2 other (tail other member)⟩
  · have marked : (¬ ∃ claimed, system.ui = .claiming claimed) →
        system.host.accessibility.inFlight = true ∧
        system.host.accessibility.publication = transaction.generation ∧
        system.host.accessibility.publicationService = flown.service :=
      delivering.claimed.resolve_left
    have drop : ¬ system.host.deliveryCurrentLocked delivery = true →
        Place { system with platformQueue := rest } transaction flown →
        Sound ({ system with platformQueue := rest }.runDelivery delivery) := by
      intro stale place
      rw [dropped stale]
      exact ⟨popped, Or.inr (Or.inr ⟨transaction, flown,
        delivering.moved (by rw [idle]; simp) place⟩)⟩
    cases delivering.place with
    | claiming claiming landed older unanswered platform mirrored =>
      exact drop (landed_batch landed) (.claiming claiming landed
        (fun other member => older other (tail other member)) unanswered platform mirrored)
    | sending sending older unanswered platform mirrored =>
      refine drop (other_batch ?_) (.sending sending
        (fun other member => older other (tail other member)) unanswered platform mirrored)
      rw [(marked (by rw [sending]; simp)).2.1]
      exact Nat.ne_of_gt (older delivery head)
    | reporting _ _ _ reporting =>
      rw [idle] at reporting
      cases reporting
    | returned free older answer answers platform mirrored =>
      refine drop (other_batch ?_) (.returned free
        (fun other member => older other (tail other member)) answer answers platform mirrored)
      rw [(delivering.marked free).2.1]
      exact Nat.ne_of_gt (older delivery head)
    | queued stale free at_end older unanswered platform mirrored =>
      obtain ⟨flying, publication, service⟩ := delivering.marked free
      rw [queued] at at_end
      cases stale with
      | nil =>
        -- The batch itself: it was computed against what the adapter holds.
        obtain ⟨rfl, rfl⟩ := List.cons_eq_cons.mp at_end
        have current : system.host.deliveryCurrentLocked delivery = true := by
          simp [deliveryCurrentLocked, basic.running, delivering.adapter, delivering.service, flying,
            publication, delivering.publication]
        have applied : replay entryKeys system.mirror delivery.publication.update =
            some (mirrorOf entryKeys transaction.candidate.entries) := by
          rw [mirrored, delivering.publication, delivering.update]
          exact script_replay delivering.ordered delivering.ordered_next
        have ran : { system with platformQueue := [] }.runDelivery delivery =
            { system with
              platformQueue := []
              mirror := mirrorOf entryKeys transaction.candidate.entries
              platform := .reporting delivery.service transaction.generation true } := by
          unfold runDelivery
          rw [if_neg (by simpa using current)]
          dsimp only
          rw [applied, delivering.publication]
        rw [ran]
        refine ⟨⟨basic.running, basic.delivering, basic.retryPending, basic.retryRequested,
          basic.tasks, ?_, basic.publishing, basic.accepted, basic.unpublished, basic.latest⟩,
          Or.inr (Or.inr ⟨transaction, delivery, delivering.moved (by simp)
            (.reporting free ?_ unanswered rfl rfl)⟩)⟩
        · intro other member
          cases member
        · intro other member
          cases member
      | cons first stale =>
        obtain ⟨rfl, rfl⟩ := List.cons_eq_cons.mp at_end
        refine drop (other_batch ?_) (.queued stale free rfl
          (fun other member => older other (List.mem_cons_of_mem _ member)) unanswered platform
          mirrored)
        rw [publication]
        exact Nat.ne_of_gt (older delivery List.mem_cons_self)

end Platform

/-- The UI thread goes on. -/
theorem Sound.continue_ui {system next : AccessibilitySystem} (sound : system.Sound)
    (kept : system.keepsOrder .continueUi = true) (stepped : system.continueUi = some next) :
    next.Sound := by
  cases point : system.ui with
  | idle =>
    simp only [continueUi, point] at stepped
    cases stepped
  | publishing =>
    simp only [continueUi, point] at stepped
    cases stepped
    exact sound.posted point
  | dispatching =>
    simp only [continueUi, point] at stepped
    cases stepped
    exact sound.dispatched point kept
  | claiming => exact sound.claimed point stepped
  | sending =>
    simp only [continueUi, point] at stepped
    cases stepped
    exact sound.sent point
  | acknowledging => exact sound.acknowledged point stepped
  | retrying | clearingRetry =>
    -- No adapter fails, so there is nothing to retry.
    have overtaken := @Sound.overtaken system { system.host with
      accessibility := { system.host.accessibility with
        generation := system.host.accessibility.generation + 1 } } sound rfl (Nat.lt_succ_self _)
    rw [point] at overtaken
    cases overtaken

/-- Every step that keeps the order keeps the system sound. -/
theorem step_sound {system next : AccessibilitySystem} {action : Action} (sound : system.Sound)
    (kept : system.keepsOrder action = true) (stepped : system.step action = some next) :
    next.Sound := by
  cases action with
  | publishSemantics tree =>
    simp only [step, Option.ite_none_right_eq_some, Option.some.injEq, ui_idle_iff] at stepped
    obtain ⟨idle, rfl⟩ := stepped
    unfold publishSemantics publishSemanticsLocked
    cases flattened : flattenTree tree with
    | error => exact sound
    | ok entries =>
      obtain ⟨basic, phase⟩ := sound
      rw [if_pos basic.running]
      show (system.atUi system.uiQueue (.publishing _ tree)
        system.host.accessibility.desiredSemantics system.published).Sound
      refine ⟨basic.at_ui basic.tasks ?_ basic.accepted (fun unset => unset) basic.latest, ?_⟩
      · rintro _ _ ⟨⟩
        exact SemanticsTree.accepted_of flattened
      · have free : Unburdened system.ui := by
          rw [idle]
          trivial
        rcases phase with awaiting | settled | ⟨transaction, delivery, delivering⟩
        · exact Or.inl (awaiting.at_ui rfl trivial)
        · obtain ⟨landed, shown⟩ := settled.idle idle
          exact Or.inr (Or.inl (settled.at_ui rfl landed (Or.inr ⟨Or.inr ⟨_, _, rfl⟩, shown⟩)))
        · exact Or.inr (Or.inr ⟨transaction, delivery, delivering.at_ui free trivial rfl
            (fun _ _ _ member => member) fun member => member⟩)
  | setAccessibilityAdapter adapter =>
    simp only [step, Option.ite_none_right_eq_some, Option.some.injEq] at stepped
    obtain ⟨_, rfl⟩ := stepped
    exact sound.replaced adapter (by simpa [keepsOrder] using kept)
  | runUi =>
    simp only [step] at stepped
    split at stepped
    · cases stepped
    · rename_i task rest queued
      simp only [Option.ite_none_right_eq_some, Option.some.injEq, ui_idle_iff] at stepped
      obtain ⟨idle, rfl⟩ := stepped
      cases task with
      | publish serviceGeneration tree =>
        refine sound.run_publish idle queued ?_
        simpa [keepsOrder, queued] using kept
      | acknowledge => exact sound.run_acknowledge idle queued
      | reset => exact sound.run_reset idle queued
  | continueUi => exact sound.continue_ui kept stepped
  | runPlatform =>
    simp only [step] at stepped
    split at stepped
    · cases stepped
    · rename_i delivery rest queued
      simp only [Option.ite_none_right_eq_some, Option.some.injEq] at stepped
      obtain ⟨idle, rfl⟩ := stepped
      exact sound.run_delivery idle queued
  | continuePlatform =>
    simp only [step, continuePlatform] at stepped
    split at stepped
    · cases stepped
    · rename_i service replacing
      cases stepped
      exact sound.reset_posted replacing
    · rename_i service generation success reporting
      cases stepped
      exact sound.report_posted reporting

end AccessibilitySystem

/-- A window that has just been created has nothing on its way. -/
theorem accessibility_init_sound {system : AccessibilitySystem}
    (initial : accessibilityMachine.init system) : system.Sound := by
  obtain ⟨id, logicalSize, physicalWidth, physicalHeight, devicePixelRatio, visible, host, created,
    rfl⟩ := initial
  simp only [createHostWindow] at created
  split at created
  · cases created
  split at created
  · cases created
  cases created
  refine ⟨⟨rfl, rfl, rfl, rfl, ?_, ?_, (fun _ _ at_point => by cases at_point), ?_,
    fun _ => ⟨rfl, rfl⟩, rfl⟩, Or.inr (Or.inl ⟨rfl, rfl, ⟨List.nodup_nil, trivial⟩, rfl, rfl, rfl, ?_⟩)⟩
  · intro task member
    cases member
  · intro delivery member
    cases member
  · intro tree desired
    cases desired
  · intro installed
    cases installed

/-- In every run that keeps the order, the window stays alive, and once nothing is
queued and no thread is inside an operation the current adapter mirrors the tree
published last. -/
theorem adapter_mirrors_published {system : AccessibilitySystem}
    (reached : Reaches accessibilityMachine
      (fun system action => system.keepsOrder action = true) system) :
    system.host.running = true ∧
      (system.quiet = true → system.host.accessibility.adapter.isSome →
        system.mirror = mirrorOf entryKeys (system.published.getD {}).entries) := by
  have sound : system.Sound := reached.invariant AccessibilitySystem.Sound
    (fun _ initial => accessibility_init_sound initial)
    fun _ _ _ sound kept stepped => AccessibilitySystem.step_sound sound kept stepped
  obtain ⟨basic, phase⟩ := sound
  refine ⟨basic.running, fun quiet installed => ?_⟩
  simp only [AccessibilitySystem.quiet, Bool.and_eq_true, List.isEmpty_iff, ui_idle_iff,
    decide_eq_true_eq] at quiet
  obtain ⟨⟨⟨drained, idle⟩, delivered⟩, platform⟩ := quiet
  have latest := basic.latest
  rw [drained, last_tree_nil] at latest
  rcases phase with awaiting | settled | ⟨transaction, delivery, delivering⟩
  · have due := awaiting.due
    rw [resetsDue, drained, platform] at due
    cases due
  · rw [settled.mirrored, ← latest]
    cases desired : system.host.accessibility.desiredSemantics with
    | none =>
      rw [(basic.unpublished desired).1]
      rfl
    | some tree => exact (settled.idle idle).2 installed tree desired
  · cases delivering.place with
    | claiming claiming =>
      rw [idle] at claiming
      cases claiming
    | sending sending =>
      rw [idle] at sending
      cases sending
    | queued stale _ queued =>
      rw [delivered] at queued
      cases stale <;> cases queued
    | reporting _ _ _ reporting =>
      rw [platform] at reporting
      cases reporting
    | returned _ _ answer =>
      rw [drained] at answer
      cases answer

/-- A window just created. -/
def createdWindow : AccessibilitySystem :=
  { host := { id := 1, metrics := ⟨⟨10, 20⟩, 10, 20, 1, 1⟩ } }

theorem created_window_initial : accessibilityMachine.init createdWindow := by
  have valid : WindowMetrics.valid ⟨⟨10, 20⟩, 10, 20, 1, 1⟩ = true := by decide +kernel
  refine ⟨1, ⟨10, 20⟩, 10, 20, 1, false, createdWindow.host, ?_, rfl⟩
  simp [createHostWindow, valid, createdWindow]

/-- A tree of a single node. -/
def onlyNode : SemanticsTree := ⟨[{ id := 1 }]⟩

/-- An adapter is installed and its reset runs. -/
def installed (adapter : Nat) : List AccessibilitySystem.Action :=
  [.setAccessibilityAdapter (some adapter), .continuePlatform, .runUi, .continueUi]

/-- A tree is published, delivered and acknowledged. -/
theorem published_node_mirrored :
    ∃ system, accessibilityMachine.runGuarded
        (fun system action => system.keepsOrder action = true) createdWindow
        (installed 1 ++ [.publishSemantics onlyNode, .continueUi, .runUi, .continueUi, .continueUi,
          .continueUi, .runPlatform, .continuePlatform, .runUi, .continueUi, .continueUi]) =
        some system ∧
      system.host.running = true ∧ system.mirror = mirrorOf entryKeys onlyNode.entries := by
  have observed : (accessibilityMachine.runGuarded
      (fun system action => system.keepsOrder action = true) createdWindow
      (installed 1 ++ [.publishSemantics onlyNode, .continueUi, .runUi, .continueUi, .continueUi,
        .continueUi, .runPlatform, .continuePlatform, .runUi, .continueUi, .continueUi])).map
      (fun system => ((system.quiet, system.host.accessibility.adapter.isSome),
        (system.published.getD {}).entries)) = some ((true, true), onlyNode.entries) := by
    decide +kernel
  obtain ⟨system, ran, seen⟩ := Option.map_eq_some_iff.mp observed
  simp only [Prod.mk.injEq] at seen
  obtain ⟨⟨quiet, installed⟩, published⟩ := seen
  obtain ⟨running, mirrored⟩ := adapter_mirrors_published
    ((Reaches.start created_window_initial).run_guarded ran)
  refine ⟨system, ran, running, ?_⟩
  rw [mirrored quiet installed, published]

/-- The UI has read the service and not yet posted its publication when the adapter is
replaced and the reset for the new one posted. The reset finds no tree to dispatch, and
the publication, being for the old service, dispatches nothing. -/
theorem overtaken_publication_lost :
    ∃ system, Reachable accessibilityMachine system ∧ system.quiet = true ∧
      system.host.running = true ∧ system.host.accessibility.adapter = some 2 ∧
      (system.published.map (·.entries)) = some onlyNode.entries ∧
      system.mirror 1 = none ∧ (mirrorOf entryKeys onlyNode.entries 1).isSome = true := by
  have observed : (accessibilityMachine.run createdWindow
      (installed 1 ++ [.publishSemantics onlyNode, .setAccessibilityAdapter (some 2),
        .continuePlatform, .continueUi, .runUi, .continueUi, .runUi])).map (fun system =>
        ((system.quiet, system.host.running), system.host.accessibility.adapter,
          system.published.map (·.entries), system.mirror 1)) =
      some ((true, true), some 2, some onlyNode.entries, none) := by decide +kernel
  have shown : (mirrorOf entryKeys onlyNode.entries 1).isSome = true := by decide +kernel
  obtain ⟨system, ran, seen⟩ := Option.map_eq_some_iff.mp observed
  simp only [Prod.mk.injEq] at seen
  obtain ⟨⟨quiet, running⟩, adapter, published, missing⟩ := seen
  exact ⟨system, Reachable.run (.start created_window_initial) ran, quiet, running, adapter,
    published, missing, shown⟩

end Dui
