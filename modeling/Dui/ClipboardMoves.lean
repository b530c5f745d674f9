import Dui.HostClipboard
import Mathlib.Logic.Relation

/-! Where a clipboard request is: pending, on its way to the delegate or delivered.
A move takes it on or leaves it where it is; only a shutdown that cannot reach the
UI, or a change of binding, loses it. -/
namespace Dui
open Host HostWindowState Transition

/-- The request that a delegate call completes. -/
def DelegateEvent.completion : DelegateEvent → Option ClipboardRequestId
  | .clipboardCompleted result => some result.request
  | .clipboardCanceled pending => some pending.id
  | _ => none

def UiStep.completion : UiStep → Option ClipboardRequestId
  | .invoke _ _ event => event.completion
  | _ => none

/-- How often a request has been completed. -/
def completions (delivered : List (Nat × DelegateEvent)) (request : ClipboardRequestId) : Nat :=
  delivered.countP fun entry => entry.2.completion = some request

/-- How often its completion is on its way. -/
def queuedCompletions (queue : List UiStep) (request : ClipboardRequestId) : Nat :=
  queue.countP fun step => step.completion = some request

def pendingRequests (requests : List PendingClipboardRequest) (request : ClipboardRequestId) :
    Nat :=
  requests.countP fun pending => pending.id = request

/-- What decides which completions a delegate receives. -/
structure ClipboardView where
  running : Bool
  deliverQueuedEvents : Bool
  shutdownUiPending : Bool
  bound : Bool
  generation : Nat
  nextSequence : Nat
  requests : List PendingClipboardRequest
  queue : List UiStep
  delivered : List (Nat × DelegateEvent)

def HostWindowState.clipboardView (state : HostWindowState) (queue : List UiStep)
    (delivered : List (Nat × DelegateEvent)) : ClipboardView where
  running := state.running
  deliverQueuedEvents := state.deliverQueuedEvents
  shutdownUiPending := state.shutdownUiPending
  bound := state.delegate.isSome
  generation := state.delegateGeneration
  nextSequence := state.clipboardNextSequence
  requests := state.clipboardRequests
  queue := queue
  delivered := delivered

/-- The window as far as its clipboard requests go. -/
def Host.clipboardView (host : Host) : ClipboardView :=
  host.state.clipboardView host.uiQueue host.delivered

namespace ClipboardView

/-- Where a request is, counted over all places. -/
def total (view : ClipboardView) (request : ClipboardRequestId) : Nat :=
  pendingRequests view.requests request + queuedCompletions view.queue request +
    completions view.delivered request

/-- A view in which the shutdown task has been posted. -/
def stop (view : ClipboardView) (pointers : List PointerId) : ClipboardView :=
  { view with
    running := false, shutdownUiPending := true, requests := []
    queue := view.queue ++ shutdownTask view.generation view.requests pointers }

/-- A view in which the delegate has been let go. -/
def release (view : ClipboardView) : ClipboardView :=
  { view with
    deliverQueuedEvents := false, shutdownUiPending := false, bound := false
    generation := if view.generation ≠ maxGeneration then view.generation + 1
      else view.generation }

end ClipboardView

section View
variable (host : Host)

@[simp] theorem report_error_clipboard (source : HostErrorSource) (failure : Failure) :
    (host.reportError source failure).clipboardView = host.clipboardView := rfl

@[simp] theorem report_post_clipboard : host.reportPost.clipboardView = host.clipboardView := rfl

@[simp] theorem post_platform_clipboard (task : PlatformTask) :
    (host.postPlatform task).2.clipboardView = host.clipboardView := by
  unfold postPlatform
  split <;> rfl

@[simp] theorem complete_platform_shutdown_clipboard :
    host.completePlatformShutdown.clipboardView = host.clipboardView := by
  unfold completePlatformShutdown
  split <;> rfl

@[simp] theorem schedule_platform_shutdown_clipboard (onPlatform : Bool) :
    (host.schedulePlatformShutdown onPlatform).clipboardView = host.clipboardView := by
  unfold schedulePlatformShutdown
  split
  · rfl
  · dsimp only
    split
    · exact complete_platform_shutdown_clipboard _
    · have posted := post_platform_clipboard
        { host with state := { host.state with platformShutdownPending := true } } .completeShutdown
      split <;> exact posted

theorem release_delegate_clipboard (state : HostWindowState) (queue : List UiStep)
    (delivered : List (Nat × DelegateEvent)) :
    (releaseDelegateLocked state state.delegateGeneration).clipboardView queue delivered =
      (state.clipboardView queue delivered).release := by
  rw [releaseDelegateLocked, if_pos rfl]
  rfl

/-- A shutdown does nothing to a stopped window; it stops a running one and hands
over its requests, or, where its task cannot be posted, lets the delegate go. -/
theorem shutdown_clipboard (onPlatform : Bool) :
    (host.state.running = false ∧
      (host.shutdown onPlatform).clipboardView = host.clipboardView) ∨
    (host.state.running = true ∧ ∃ pointers,
      ((host.shutdown onPlatform).clipboardView = host.clipboardView.stop pointers ∨
        (host.shutdown onPlatform).clipboardView =
          { host.clipboardView with running := false, requests := [] }.release)) := by
  unfold shutdown
  split
  case isTrue stopped =>
    refine .inl ⟨by simpa using stopped, ?_⟩
    split
    · exact schedule_platform_shutdown_clipboard host onPlatform
    · rfl
  case isFalse running =>
    refine .inr ⟨by simpa using running, host.state.stopLocked.takeActivePointersLocked.1, ?_⟩
    dsimp only
    cases posted : host.postSucceeds with
    | true =>
      simp only [post_ui_taken { host with
        state := host.state.stopLocked.takeActivePointersLocked.2 } _ posted, if_true]
      exact .inl rfl
    | false =>
      simp only [post_ui_refused { host with
        state := host.state.stopLocked.takeActivePointersLocked.2 } _ posted, Bool.false_eq_true,
        if_false]
      refine .inr ?_
      rw [schedule_platform_shutdown_clipboard]
      exact release_delegate_clipboard host.state.stopLocked.takeActivePointersLocked.2 _ _

end View

/-- Whether a queued delegate call reaches the delegate. -/
def ClipboardView.invokes (view : ClipboardView) (generation : Nat) (requireRunning : Bool) :
    Bool :=
  ¬ (requireRunning ∧ ¬ view.running ∧ ¬ view.deliverQueuedEvents) ∧
    view.generation = generation ∧ view.bound

/-- A part of a task that neither completes a request nor ends a shutdown. -/
def UiStep.besides (step : UiStep) : Prop :=
  step.completion = none ∧ ∀ generation, step ≠ .finishShutdown generation

/-- What can happen to the requests, one move at a time. Where the binding is kept
and every shutdown reaches the UI, the last two do not. -/
inductive ClipboardMove : Bool → ClipboardView → ClipboardView → Prop where
  /-- A request is made. -/
  | start {kept} (view) (service : Nat) (operation : ClipboardOperation)
      (running : view.running = true) :
      ClipboardMove kept view { view with
        nextSequence := view.nextSequence + 1
        requests := view.requests ++ [⟨⟨service, view.nextSequence⟩, operation⟩] }
  /-- A request is made and taken back. -/
  | takeBack {kept} (view) (service : Nat) :
      ClipboardMove kept view { view with
        nextSequence := view.nextSequence + 1
        requests := view.requests.filter fun pending => pending.id ≠ ⟨service, view.nextSequence⟩ }
  /-- An answer is on its way. -/
  | answer {kept} (view) (result) (running : view.running = true)
      (pending : ∃ pending ∈ view.requests, pending.id = ClipboardResult.request result) :
      ClipboardMove kept view { view with
        requests := view.requests.filter fun pending => pending.id ≠ result.request
        queue := view.queue ++
          [.invoke view.generation true (.clipboardCompleted result)] }
  /-- All pending requests are canceled. -/
  | replace {kept} (view) (window : WindowId) (running : view.running = true) :
      ClipboardMove kept view { view with
        requests := []
        queue := view.queue ++ canceledTask view.generation window view.requests }
  | stop {kept} (view) (pointers : List PointerId) (running : view.running = true) :
      ClipboardMove kept view (view.stop pointers)
  /-- Another task is posted. -/
  | post {kept} (view) {task} (other : ∀ step ∈ task, UiStep.besides step) :
      ClipboardMove kept view { view with queue := view.queue ++ task }
  /-- A delegate call comes to the front. -/
  | tell {kept} (view) {generation requireRunning event rest}
      (queued : view.queue = .invoke generation requireRunning event :: rest) :
      ClipboardMove kept view { view with
        queue := rest
        delivered := if view.invokes generation requireRunning then
          view.delivered ++ [(generation, event)] else view.delivered }
  /-- Another part of a task comes to the front. -/
  | pass {kept} (view) {step rest} (told) (queued : view.queue = step :: rest)
      (other : step.besides)
      (telling : ∀ entry ∈ told, DelegateEvent.completion (Prod.snd entry) = none) :
      ClipboardMove kept view { view with queue := rest, delivered := view.delivered ++ told }
  /-- A shutdown comes to its end. -/
  | finish {kept} (view) {generation rest bound next}
      (queued : view.queue = .finishShutdown generation :: rest) :
      ClipboardMove kept view { view with
        queue := rest, deliverQueuedEvents := false, shutdownUiPending := false
        bound := bound, generation := next }
  /-- A shutdown cannot be posted. -/
  | abandon (view) (running : view.running = true) :
      ClipboardMove false view { view with running := false, requests := [] }.release
  /-- The binding changes. -/
  | rebind (view) (bound : Bool) (generation : Nat) :
      ClipboardMove false view { view with bound, generation }

section Count
variable {request : ClipboardRequestId}

theorem queued_append (first second : List UiStep) :
    queuedCompletions (first ++ second) request =
      queuedCompletions first request + queuedCompletions second request :=
  List.countP_append

theorem queued_besides {task : List UiStep} (other : ∀ step ∈ task, step.besides) :
    queuedCompletions task request = 0 := by
  rw [queuedCompletions, List.countP_eq_zero]
  intro step member
  simp [(other step member).1]

theorem queued_cons (step : UiStep) (rest : List UiStep) :
    queuedCompletions (step :: rest) request =
      queuedCompletions rest request + if step.completion = some request then 1 else 0 := by
  simp [queuedCompletions, List.countP_cons]

theorem completions_append (first second : List (Nat × DelegateEvent)) :
    completions (first ++ second) request =
      completions first request + completions second request :=
  List.countP_append

theorem completions_told (generation : Nat) (event : DelegateEvent) :
    completions [(generation, event)] request =
      if event.completion = some request then 1 else 0 := by
  simp [completions, List.countP_cons]

theorem completions_besides {told : List (Nat × DelegateEvent)}
    (telling : ∀ entry ∈ told, entry.2.completion = none) : completions told request = 0 := by
  rw [completions, List.countP_eq_zero]
  intro entry member
  simp [telling entry member]

/-- Taking a request out of the pending ones. -/
theorem pending_erased (requests : List PendingClipboardRequest) (erased : ClipboardRequestId) :
    pendingRequests (requests.filter fun pending => pending.id ≠ erased) request =
      if request = erased then 0 else pendingRequests requests request := by
  rw [pendingRequests, List.countP_filter]
  split
  case isTrue same =>
    rw [List.countP_eq_zero]
    intro pending _
    simp [same]
  case isFalse other =>
    refine List.countP_congr fun pending _ => ?_
    simp only [ne_eq, decide_not, Bool.and_eq_true, decide_eq_true_eq, Bool.not_eq_true',
      decide_eq_false_iff_not, and_iff_left_iff_imp]
    rintro rfl
    exact other

/-- Erasing a request just made. -/
theorem erased_made {requests : List PendingClipboardRequest} (made : ClipboardRequestId)
    (operation : ClipboardOperation) :
    (requests ++ [⟨made, operation⟩] : List PendingClipboardRequest).filter
        (fun pending => pending.id ≠ made) =
      requests.filter fun pending => pending.id ≠ made := by
  simp [List.filter_append]

theorem queued_canceled (generation : Nat) (window : WindowId)
    (canceled : List PendingClipboardRequest) :
    queuedCompletions (canceledTask generation window canceled) request =
      pendingRequests canceled request := by
  rw [queuedCompletions, canceledTask, List.countP_map, pendingRequests]
  congr 1
  funext pending
  simp [UiStep.completion, DelegateEvent.completion]

theorem queued_shutdown (generation : Nat) (requests : List PendingClipboardRequest)
    (pointers : List PointerId) :
    queuedCompletions (shutdownTask generation requests pointers) request =
      pendingRequests requests request := by
  have canceled : queuedCompletions (requests.map fun pending =>
      UiStep.invoke generation false (.clipboardCanceled pending)) request =
      pendingRequests requests request := by
    rw [queuedCompletions, List.countP_map, pendingRequests]
    congr 1
    funext pending
    simp [UiStep.completion, DelegateEvent.completion]
  have closing : queuedCompletions (cancelSteps generation false pointers) request = 0 := by
    simp [queuedCompletions, cancelSteps, UiStep.completion, DelegateEvent.completion]
  have ending : queuedCompletions [UiStep.invoke generation false .windowShuttingDown,
      .finishShutdown generation] request = 0 := by
    simp [queuedCompletions, UiStep.completion, DelegateEvent.completion]
  rw [shutdownTask, List.cons_append, List.cons_append, ← List.singleton_append, queued_append,
    queued_append, queued_append, canceled, closing, ending]
  simp [queuedCompletions, UiStep.completion]

end Count

/-- No request is in two places or twice in one, and new ones are in none. -/
structure ClipboardView.Counted (view : ClipboardView) : Prop where
  once : ∀ request, view.total request ≤ 1
  fresh : ∀ request : ClipboardRequestId, view.nextSequence ≤ request.sequence →
    view.total request = 0

namespace ClipboardMove
variable {kept : Bool} {view next : ClipboardView}

/-- A move that makes no request only moves requests on. -/
theorem counted_of_le (counted : view.Counted) (sequence : next.nextSequence = view.nextSequence)
    (fewer : ∀ request, next.total request ≤ view.total request) : next.Counted where
  once request := (fewer request).trans (counted.once request)
  fresh request later := by
    have none := counted.fresh request (sequence ▸ later)
    have fewer := fewer request
    omega

theorem counted (move : ClipboardMove kept view next) (counted : view.Counted) :
    next.Counted := by
  cases move with
  | start _ service operation running =>
    have counts : ∀ request, pendingRequests (view.requests ++
        [⟨⟨service, view.nextSequence⟩, operation⟩]) request =
        pendingRequests view.requests request +
          if request = ⟨service, view.nextSequence⟩ then 1 else 0 := by
      intro request
      simp [pendingRequests, List.countP_append, List.countP_cons, eq_comm]
    constructor
    · intro request
      have once := counted.once request
      simp only [ClipboardView.total, counts] at once ⊢
      split
      case isTrue same =>
        have none := counted.fresh request (by simp [same])
        simp only [ClipboardView.total] at none
        omega
      case isFalse => omega
    · intro request later
      have none := counted.fresh request ((Nat.le_succ _).trans later)
      have other : request ≠ ⟨service, view.nextSequence⟩ := by
        rintro rfl
        exact Nat.not_succ_le_self _ later
      simp only [ClipboardView.total, counts, if_neg other] at none ⊢
      omega
  | takeBack _ service =>
    constructor
    · intro request
      have once := counted.once request
      simp only [ClipboardView.total, pending_erased] at once ⊢
      split <;> omega
    · intro request later
      have none := counted.fresh request ((Nat.le_succ _).trans later)
      simp only [ClipboardView.total, pending_erased] at none ⊢
      split <;> omega
  | @answer _ _ result running pending =>
    refine counted_of_le counted rfl fun request => ?_
    simp only [ClipboardView.total, queued_append, queued_cons, pending_erased]
    obtain ⟨pending, member, same⟩ := pending
    by_cases this : request = result.request
    · have positive : 0 < pendingRequests view.requests request :=
        List.countP_pos_iff.mpr ⟨pending, member, by simp [same, this]⟩
      simp [this, UiStep.completion, DelegateEvent.completion, queuedCompletions] at positive ⊢
      omega
    · simp [this, UiStep.completion, DelegateEvent.completion, queuedCompletions, Ne.symm this]
  | replace _ window running =>
    refine counted_of_le counted rfl fun request => le_of_eq ?_
    simp only [ClipboardView.total, queued_append, queued_canceled, pendingRequests,
      List.countP_nil]
    omega
  | stop _ pointers running =>
    refine counted_of_le counted rfl fun request => le_of_eq ?_
    simp only [ClipboardView.total, ClipboardView.stop, queued_append, queued_shutdown,
      pendingRequests, List.countP_nil]
    omega
  | post _ other =>
    refine counted_of_le counted rfl fun request => le_of_eq ?_
    simp only [ClipboardView.total, queued_append, queued_besides other, Nat.add_zero]
  | @tell _ _ _ _ event _ queued =>
    refine counted_of_le counted rfl fun request => ?_
    simp only [ClipboardView.total, queued, queued_cons, UiStep.completion]
    split
    · rw [completions_append, completions_told]
      by_cases completes : event.completion = some request
      · simp [completes]
        omega
      · simp [completes]
    · omega
  | pass _ _ queued other telling =>
    refine counted_of_le counted rfl fun request => ?_
    simp only [ClipboardView.total, queued, queued_cons, completions_append,
      completions_besides telling]
    omega
  | finish _ queued =>
    refine counted_of_le counted rfl fun request => ?_
    simp only [ClipboardView.total, queued, queued_cons]
    omega
  | abandon _ running =>
    refine counted_of_le counted rfl fun request => ?_
    simp only [ClipboardView.total, ClipboardView.release, pendingRequests, List.countP_nil]
    omega
  | rebind _ bound generation => exact counted_of_le counted rfl fun _ => le_rfl

end ClipboardMove

/-- A request that has its place and will not lose it as long as the binding is kept
and a shutdown reaches the UI. -/
structure ClipboardView.Held (view : ClipboardView) (request : ClipboardRequestId) : Prop where
  whole : view.total request = 1
  bound : 0 < pendingRequests view.requests request + queuedCompletions view.queue request →
    view.bound = true ∧ view.deliverQueuedEvents = true
  current : ∀ generation requireRunning event,
    .invoke generation requireRunning event ∈ view.queue → event.completion = some request →
      generation = view.generation
  pending : 0 < pendingRequests view.requests request → view.running = true
  unfinished : view.running = true → ∀ generation, .finishShutdown generation ∉ view.queue
  /-- No completion is behind the end of a shutdown. -/
  order : view.queue.Pairwise fun earlier later =>
    (∃ generation, earlier = .finishShutdown generation) → later.completion ≠ some request

namespace ClipboardMove
variable {view next : ClipboardView} {request : ClipboardRequestId}

/-- Steps of which only the last may end a shutdown. -/
private theorem order_task {task : List UiStep}
    (other : ∀ step ∈ task, ∀ generation, step ≠ .finishShutdown generation) :
    task.Pairwise fun earlier later =>
      (∃ generation, earlier = .finishShutdown generation) → later.completion ≠ some request := by
  refine List.pairwise_of_forall_mem_list ?_
  rintro earlier member later _ ⟨generation, rfl⟩
  exact absurd rfl (other _ member generation)

/-- Posting behind a queue without the end of a shutdown. -/
private theorem order_post {queue task : List UiStep}
    (unfinished : ∀ generation, .finishShutdown generation ∉ queue)
    (order : task.Pairwise fun earlier later =>
      (∃ generation, earlier = UiStep.finishShutdown generation) →
        later.completion ≠ some request) :
    (queue ++ task).Pairwise fun earlier later =>
      (∃ generation, earlier = .finishShutdown generation) → later.completion ≠ some request := by
  have none : ∀ step ∈ queue, ∀ generation, step ≠ .finishShutdown generation := by
    rintro step member generation rfl
    exact unfinished generation member
  refine List.pairwise_append.mpr ⟨order_task none, order, ?_⟩
  rintro earlier member later _ ⟨generation, rfl⟩
  exact absurd rfl (none _ member generation)

private theorem order_shutdown (generation : Nat) (requests : List PendingClipboardRequest)
    (pointers : List PointerId) :
    (shutdownTask generation requests pointers).Pairwise fun earlier later =>
      (∃ generation, earlier = .finishShutdown generation) → later.completion ≠ some request := by
  have whole : shutdownTask generation requests pointers =
      (.dropSemantics :: (requests.map fun pending =>
          .invoke generation false (.clipboardCanceled pending)) ++
        cancelSteps generation false pointers ++
        [.invoke generation false .windowShuttingDown]) ++ [.finishShutdown generation] := by
    simp [shutdownTask]
  have front : ∀ step ∈ (.dropSemantics :: (requests.map fun pending =>
        .invoke generation false (.clipboardCanceled pending)) ++
      cancelSteps generation false pointers ++
      [.invoke generation false .windowShuttingDown] : List UiStep), ∀ own,
      step ≠ .finishShutdown own := by
    simp only [cancelSteps, List.cons_append, List.mem_cons, List.mem_append, List.mem_map,
      List.not_mem_nil, or_false]
    rintro step (rfl | ((⟨pending, _, rfl⟩ | ⟨pointer, _, rfl⟩) | rfl)) own <;> simp
  rw [whole]
  refine List.pairwise_append.mpr ⟨order_task front, List.pairwise_singleton _ _, ?_⟩
  rintro earlier member later _ ⟨own, rfl⟩
  exact absurd rfl (front _ member own)

private theorem shutdown_generation {own generation : Nat} {requireRunning : Bool}
    {event : DelegateEvent} {requests : List PendingClipboardRequest} {pointers : List PointerId}
    (member : .invoke own requireRunning event ∈ shutdownTask generation requests pointers) :
    own = generation := by
  simp only [shutdownTask, cancelSteps, List.cons_append, List.mem_cons, List.mem_append,
    List.mem_map, List.not_mem_nil, or_false, reduceCtorEq, false_or, UiStep.invoke.injEq] at member
  obtain (⟨_, _, rfl, _⟩ | ⟨_, _, rfl, _⟩) | ⟨rfl, _⟩ := member <;> rfl

/-- Requests come and go without the one that is held. -/
theorem held_besides (held : view.Held request) {requests : List PendingClipboardRequest}
    (sequence : Nat)
    (same : pendingRequests requests request = pendingRequests view.requests request) :
    ClipboardView.Held { view with nextSequence := sequence, requests } request := by
  obtain ⟨whole, bound, current, pending, unfinished, order⟩ := held
  rw [ClipboardView.total] at whole
  exact ⟨by rw [ClipboardView.total, same]; exact whole, by rw [same]; exact bound, current,
    by rw [same]; exact pending, unfinished, order⟩

/-- A task is posted that completes the request if it is not pending any more. -/
theorem held_posted (held : view.Held request) {task : List UiStep} {running stopping : Bool}
    {requests : List PendingClipboardRequest}
    (counts : pendingRequests requests request + queuedCompletions task request =
      pendingRequests view.requests request)
    (own : ∀ generation requireRunning event, .invoke generation requireRunning event ∈ task →
      event.completion = some request → generation = view.generation)
    (answers : 0 < pendingRequests requests request → running = true)
    (ran : running = true → view.running = true)
    (opened : running = true → ∀ generation, .finishShutdown generation ∉ task)
    (order : (view.queue ++ task).Pairwise fun earlier later =>
      (∃ generation, earlier = .finishShutdown generation) → later.completion ≠ some request) :
    ClipboardView.Held { view with
      running, shutdownUiPending := stopping, requests, queue := view.queue ++ task } request := by
  obtain ⟨whole, bound, current, -, unfinished, -⟩ := held
  rw [ClipboardView.total] at whole
  refine ⟨?_, ?_, ?_, answers, ?_, order⟩
  · simp only [ClipboardView.total, queued_append]
    omega
  · intro somewhere
    apply bound
    simp only [queued_append] at somewhere
    omega
  · intro generation requireRunning event queued completes
    obtain before | latest := List.mem_append.mp queued
    · exact current generation requireRunning event before completes
    · exact own generation requireRunning event latest completes
  · intro running generation queued
    obtain before | latest := List.mem_append.mp queued
    · exact unfinished (ran running) generation before
    · exact opened running generation latest

theorem held_answer (held : view.Held request) {result : ClipboardResult}
    (running : view.running = true)
    (answered : ∃ pending ∈ view.requests, pending.id = result.request) :
    ClipboardView.Held { view with
      requests := view.requests.filter fun pending => pending.id ≠ result.request
      queue := view.queue ++
        [.invoke view.generation true (.clipboardCompleted result)] } request := by
  obtain ⟨found, member, same⟩ := answered
  refine held_posted held ?_ ?_ (fun _ => running) (fun running => running) ?_
    (order_post (held.unfinished running) (List.pairwise_singleton _ _))
  · rw [pending_erased]
    by_cases this : request = result.request
    · have positive : 0 < pendingRequests view.requests request :=
        List.countP_pos_iff.mpr ⟨found, member, by simp [same, this]⟩
      have whole := held.whole
      rw [ClipboardView.total] at whole
      have once : pendingRequests view.requests request = 1 := by omega
      rw [if_pos this, once]
      simp [this, UiStep.completion, DelegateEvent.completion, queuedCompletions]
    · simp [this, UiStep.completion, DelegateEvent.completion, queuedCompletions, Ne.symm this]
  · intro generation requireRunning event latest _
    simp only [List.mem_singleton, UiStep.invoke.injEq] at latest
    exact latest.1
  · intro _ generation latest
    simp at latest

theorem held_replace (held : view.Held request) (window : WindowId)
    (running : view.running = true) :
    ClipboardView.Held { view with
      requests := []
      queue := view.queue ++ canceledTask view.generation window view.requests } request := by
  refine held_posted held ?_ ?_ (fun _ => running) (fun running => running) ?_
    (order_post (held.unfinished running) (order_task (by simp [canceledTask])))
  · rw [queued_canceled]
    exact Nat.zero_add _
  · intro generation requireRunning event latest _
    simp only [canceledTask, List.mem_map, UiStep.invoke.injEq] at latest
    obtain ⟨_, _, rfl, _⟩ := latest
    rfl
  · intro _ generation latest
    simp [canceledTask] at latest

theorem held_stop (held : view.Held request) (pointers : List PointerId)
    (running : view.running = true) : (view.stop pointers).Held request := by
  refine held_posted held ?_ (fun _ _ _ latest _ => shutdown_generation latest) ?_ ?_ ?_
    (order_post (held.unfinished running) (order_shutdown _ _ _))
  · rw [queued_shutdown]
    exact Nat.zero_add _
  · exact fun somewhere => absurd somewhere (Nat.lt_irrefl 0)
  · exact fun on => absurd on Bool.false_ne_true
  · exact fun on => absurd on Bool.false_ne_true

theorem held_post (held : view.Held request) {task : List UiStep}
    (other : ∀ step ∈ task, step.besides) :
    ClipboardView.Held { view with queue := view.queue ++ task } request := by
  refine held_posted held ?_ ?_ held.pending (fun running => running) ?_ ?_
  · rw [queued_besides other, Nat.add_zero]
  · intro generation requireRunning event latest completes
    have none := (other _ latest).1
    simp [UiStep.completion, completes] at none
  · exact fun _ generation latest => (other _ latest).2 generation rfl
  · refine List.pairwise_append.mpr ⟨held.order, ?_, ?_⟩
    · refine List.pairwise_of_forall_mem_list fun _ _ later member _ => ?_
      simp [(other later member).1]
    · intro _ _ later member _
      simp [(other later member).1]

/-- The front of the queue is taken, and what completes the request there has been told. -/
theorem held_taken (held : view.Held request) {step : UiStep} {rest : List UiStep}
    {delivered : List (Nat × DelegateEvent)} (queued : view.queue = step :: rest)
    (counts : queuedCompletions rest request + completions delivered request =
      queuedCompletions view.queue request + completions view.delivered request) :
    ClipboardView.Held { view with queue := rest, delivered } request := by
  obtain ⟨whole, bound, current, pending, unfinished, order⟩ := held
  rw [ClipboardView.total] at whole
  have member : ∀ step ∈ rest, step ∈ view.queue := by
    intro step member
    rw [queued]
    exact List.mem_cons_of_mem _ member
  have fewer : queuedCompletions rest request ≤ queuedCompletions view.queue request := by
    rw [queued, queued_cons]
    exact Nat.le_add_right _ _
  rw [queued] at order
  refine ⟨?_, ?_, ?_, pending, ?_, (List.pairwise_cons.mp order).2⟩
  · simp only [ClipboardView.total]
    omega
  · intro somewhere
    apply bound
    simp only at somewhere
    omega
  · exact fun generation requireRunning event queued => current _ _ _ (member _ queued)
  · exact fun running generation queued => unfinished running generation (member _ queued)

theorem held_tell (held : view.Held request) {generation : Nat} {requireRunning : Bool}
    {event : DelegateEvent} {rest : List UiStep}
    (queued : view.queue = .invoke generation requireRunning event :: rest) :
    ClipboardView.Held { view with
      queue := rest
      delivered := if view.invokes generation requireRunning then
        view.delivered ++ [(generation, event)] else view.delivered } request := by
  refine held_taken held queued ?_
  rw [queued, queued_cons, UiStep.completion]
  by_cases completes : event.completion = some request
  · -- the call is under the binding of its request, which still delivers
    have own : generation = view.generation :=
      held.current generation requireRunning event (by simp [queued]) completes
    obtain ⟨isBound, delivers⟩ := held.bound (by
      rw [queued, queued_cons, UiStep.completion, if_pos completes]
      omega)
    have invokes : view.invokes generation requireRunning = true := by
      simp [ClipboardView.invokes, own, isBound, delivers]
    rw [if_pos invokes, if_pos completes, completions_append, completions_told, if_pos completes]
    omega
  · rw [if_neg completes, Nat.add_zero]
    split
    · rw [completions_append, completions_told, if_neg completes, Nat.add_zero]
    · rfl

theorem held_finish (held : view.Held request) {generation current : Nat} {rest : List UiStep}
    (stays : Bool) (queued : view.queue = .finishShutdown generation :: rest) :
    ClipboardView.Held { view with
      queue := rest, deliverQueuedEvents := false, shutdownUiPending := false
      bound := stays, generation := current } request := by
  obtain ⟨whole, -, -, pending, unfinished, order⟩ := held
  rw [ClipboardView.total] at whole
  have stopped : ¬ view.running = true := fun running =>
    unfinished running generation (by simp [queued])
  have noPending : pendingRequests view.requests request = 0 := by
    by_contra some
    exact stopped (pending (Nat.pos_of_ne_zero some))
  rw [queued] at order
  obtain ⟨behind, order⟩ := List.pairwise_cons.mp order
  have noQueued : queuedCompletions rest request = 0 := by
    rw [queuedCompletions, List.countP_eq_zero]
    intro step member
    simpa using behind step member ⟨generation, rfl⟩
  refine ⟨?_, ?_, ?_, ?_, ?_, order⟩
  · rw [ClipboardView.total]
    simp only [queued, queued_cons, UiStep.completion] at whole ⊢
    simpa using whole
  · intro somewhere
    simp only at somewhere
    omega
  · intro own requireRunning event queued completes
    exact absurd (by simpa [UiStep.completion] using completes)
      (behind _ queued ⟨generation, rfl⟩)
  · intro somewhere
    simp only at somewhere
    omega
  · intro running
    exact absurd running stopped

/-- A request keeps its place, or moves on to its next. -/
theorem held (move : ClipboardMove true view next) (counted : view.Counted)
    (held : view.Held request) : next.Held request := by
  have known : ∀ service, request ≠ ⟨service, view.nextSequence⟩ := by
    rintro service rfl
    have none := counted.fresh ⟨service, view.nextSequence⟩ le_rfl
    simp [held.whole] at none
  cases move with
  | start _ service operation running =>
    refine held_besides held _ ?_
    simp [pendingRequests, List.countP_append, (known service).symm]
  | takeBack _ service =>
    refine held_besides held _ ?_
    rw [pending_erased, if_neg (known service)]
  | answer _ _ running answered => exact held_answer held running answered
  | replace _ window running => exact held_replace held window running
  | stop _ pointers running => exact held_stop held pointers running
  | post _ other => exact held_post held other
  | tell _ queued => exact held_tell held queued
  | @pass _ _ step rest told queued other telling =>
    refine held_taken held queued ?_
    rw [queued, queued_cons, other.1, completions_append, completions_besides telling]
    simp
  | finish _ queued => exact held_finish held _ queued

end ClipboardMove

/-- A running window delivers, and no shutdown is about to end. -/
def ClipboardView.Lively (view : ClipboardView) : Prop :=
  view.running = true → view.deliverQueuedEvents = true ∧
    ∀ generation, .finishShutdown generation ∉ view.queue

/-- A request that was made and is not pending any more. -/
def ClipboardView.Gone (view : ClipboardView) (request : ClipboardRequestId) : Prop :=
  request.sequence < view.nextSequence ∧ pendingRequests view.requests request = 0

namespace ClipboardMove
variable {kept : Bool} {view next : ClipboardView} {request : ClipboardRequestId}

theorem lively (move : ClipboardMove kept view next) (lively : view.Lively) : next.Lively := by
  intro running
  cases move with
  | start | takeBack | rebind => exact lively running
  | answer _ _ _ _ =>
    obtain ⟨delivers, unfinished⟩ := lively running
    exact ⟨delivers, by simpa using unfinished⟩
  | replace _ _ _ =>
    obtain ⟨delivers, unfinished⟩ := lively running
    exact ⟨delivers, by simpa [canceledTask] using unfinished⟩
  | stop _ _ _ => simp [ClipboardView.stop] at running
  | abandon _ _ => simp [ClipboardView.release] at running
  | post _ other =>
    obtain ⟨delivers, unfinished⟩ := lively running
    refine ⟨delivers, fun generation queued => ?_⟩
    obtain before | latest := List.mem_append.mp queued
    · exact unfinished generation before
    · exact (other _ latest).2 generation rfl
  | tell _ queued =>
    obtain ⟨delivers, unfinished⟩ := lively running
    exact ⟨delivers, fun generation member => unfinished generation (by simp [queued, member])⟩
  | pass _ _ queued _ _ =>
    obtain ⟨delivers, unfinished⟩ := lively running
    exact ⟨delivers, fun generation member => unfinished generation (by simp [queued, member])⟩
  | @finish _ _ generation _ _ _ queued =>
    exact absurd (by simp [queued]) ((lively running).2 generation)

theorem sequence {least : Nat} (move : ClipboardMove kept view next)
    (known : least ≤ view.nextSequence) : least ≤ next.nextSequence := by
  cases move with
  | start | takeBack => exact Nat.le_succ_of_le known
  | _ => exact known

theorem gone (move : ClipboardMove kept view next) (gone : view.Gone request) :
    next.Gone request := by
  obtain ⟨known, none⟩ := gone
  have other : ∀ service, request ≠ ⟨service, view.nextSequence⟩ := by
    rintro service rfl
    exact Nat.lt_irrefl _ known
  cases move with
  | start _ service operation _ =>
    refine ⟨Nat.lt_succ_of_lt known, ?_⟩
    simpa [pendingRequests, List.countP_append, Ne.symm (other service)] using none
  | takeBack _ service =>
    refine ⟨Nat.lt_succ_of_lt known, ?_⟩
    rw [pending_erased, if_neg (other service), none]
  | answer _ _ _ _ =>
    refine ⟨known, ?_⟩
    rw [pending_erased, none, ite_self]
  | replace | stop | abandon => exact ⟨known, rfl⟩
  | post | tell | pass | finish | rebind => exact ⟨known, none⟩

end ClipboardMove

/-- Moves in a row. -/
abbrev ClipboardMoves (kept : Bool) : ClipboardView → ClipboardView → Prop :=
  Relation.ReflTransGen (ClipboardMove kept)

/-- Properties that every move keeps are kept by moves in a row. -/
theorem ClipboardMoves.keep {kept : Bool} {view next : ClipboardView}
    (good : ClipboardView → Prop) (moves : ClipboardMoves kept view next)
    (keeps : ∀ {view next}, ClipboardMove kept view next → good view → good next)
    (holds : good view) : good next := by
  induction moves with
  | refl => exact holds
  | tail _ move ih => exact keeps move ih

namespace ClipboardView
variable {view : ClipboardView} {request : ClipboardRequestId}

/-- A request just made, to a window with a delegate. -/
theorem Held.made (counted : view.Counted) (lively : view.Lively) (running : view.running = true)
    (bound : view.bound = true) (service : Nat) (operation : ClipboardOperation) :
    ClipboardView.Held { view with
        nextSequence := view.nextSequence + 1
        requests := view.requests ++ [⟨⟨service, view.nextSequence⟩, operation⟩] }
      ⟨service, view.nextSequence⟩ := by
  have none := counted.fresh ⟨service, view.nextSequence⟩ (Nat.le_refl _)
  rw [total] at none
  have unqueued : ∀ step ∈ view.queue, step.completion ≠ some ⟨service, view.nextSequence⟩ := by
    have zero : queuedCompletions view.queue ⟨service, view.nextSequence⟩ = 0 := by omega
    intro step member
    simpa using List.countP_eq_zero.mp zero step member
  obtain ⟨delivers, unfinished⟩ := lively running
  constructor
  · have pending : pendingRequests (view.requests ++
        [⟨⟨service, view.nextSequence⟩, operation⟩]) ⟨service, view.nextSequence⟩ =
        pendingRequests view.requests ⟨service, view.nextSequence⟩ + 1 := by
      simp [pendingRequests, List.countP_append]
    simp only [total, pending]
    omega
  · exact fun _ => ⟨bound, delivers⟩
  · exact fun _ _ _ queued completes => absurd completes (unqueued _ queued)
  · exact fun _ => running
  · exact fun _ => unfinished
  · exact List.pairwise_of_forall_mem_list fun _ _ later member _ => unqueued later member

/-- A held request that is nowhere on its way has been completed. -/
theorem Held.completed (held : view.Held request)
    (retired : pendingRequests view.requests request = 0) (drained : view.queue = []) :
    completions view.delivered request = 1 := by
  have whole := held.whole
  simpa [total, retired, drained, queuedCompletions] using whole

end ClipboardView

end Dui
