import Mathlib.Computability.Language
import Dui.HostWindow

/-! Pointer streams of one delegate binding. An abstract view of the window keeps
only what decides which pointer events a binding receives; every host operation
is a short list of changes to that view, and one automaton says both how a
stream goes on and that it is closed when a notice ends it. -/
namespace Dui
open Host HostWindowState Computability

/-- What a delegate call means for one pointer: a phase of its stream, or a
notice before which the stream has to be closed. -/
inductive Mark where
  | phase (phase : PointerPhase)
  | closing
  deriving DecidableEq

/-- One mark, on a stream that is open or not; `none` is a violation. -/
def Mark.follow : Bool → Mark → Option Bool
  | false, .phase .down => some true
  | true, .phase .move => some true
  | true, .phase .up => some false
  | true, .phase .cancel => some false
  | false, .closing => some false
  | _, _ => none

/-- The state of a stream after some marks. -/
def follow (isOpen : Bool) (marks : List Mark) : Option Bool := marks.foldlM Mark.follow isOpen

theorem follow_append (isOpen : Bool) (first second : List Mark) :
    follow isOpen (first ++ second) = (follow isOpen first).bind (follow · second) := by
  simp [follow, List.foldlM_append]

theorem follow_cons (isOpen : Bool) (mark : Mark) (rest : List Mark) :
    follow isOpen (mark :: rest) = (mark.follow isOpen).bind (follow · rest) := rfl

/-- The notices that a binding receives only when its streams are closed. -/
def DelegateEvent.closes : DelegateEvent → Bool
  | .visibilityChanged visible => !visible
  | .focusChanged focused => !focused
  | .windowShuttingDown => true
  | _ => false

def DelegateEvent.mark (pointer : PointerId) (event : DelegateEvent) : Option Mark :=
  match event with
  | .pointerEvent event => if event.pointer = pointer then some (.phase event.phase) else none
  | event => if event.closes then some .closing else none

/-- The marks in what was delivered to one binding. -/
def logMarks (generation : Nat) (pointer : PointerId) (log : List (Nat × DelegateEvent)) :
    List Mark :=
  log.filterMap fun entry => if entry.1 = generation then entry.2.mark pointer else none

def UiStep.mark (generation : Nat) (pointer : PointerId) : UiStep → Option Mark
  | .invoke own _ event => if own = generation then event.mark pointer else none
  | _ => none

/-- The marks in what is queued for one binding. -/
def queueMarks (generation : Nat) (pointer : PointerId) (queue : List UiStep) : List Mark :=
  queue.filterMap (UiStep.mark generation pointer)

theorem log_marks_append (generation : Nat) (pointer : PointerId)
    (first second : List (Nat × DelegateEvent)) :
    logMarks generation pointer (first ++ second) =
      logMarks generation pointer first ++ logMarks generation pointer second :=
  List.filterMap_append

theorem queue_marks_append (generation : Nat) (pointer : PointerId) (first second : List UiStep) :
    queueMarks generation pointer (first ++ second) =
      queueMarks generation pointer first ++ queueMarks generation pointer second :=
  List.filterMap_append

/-- The binding a queued delegate call is meant for. -/
def UiStep.binding : UiStep → Option Nat
  | .invoke generation _ _ => some generation
  | _ => none

/-- A part of a task that speaks to the given binding only and ends no shutdown. -/
def UiStep.Ordinary (generation : Nat) : UiStep → Prop
  | .invoke own _ _ => own = generation
  | .finishShutdown _ => False
  | _ => True

/-- A part of a task that no stream notices. -/
def UiStep.Quiet (generation : Nat) (step : UiStep) : Prop :=
  step.Ordinary generation ∧ ∀ pointer, step.mark generation pointer = none

/-- What decides which pointer events a binding receives. -/
structure Streams where
  running : Bool
  deliverQueuedEvents : Bool
  bound : Bool
  generation : Nat
  active : List PointerId
  queue : List UiStep
  delivered : List (Nat × DelegateEvent)

def HostWindowState.streams (state : HostWindowState) (queue : List UiStep)
    (delivered : List (Nat × DelegateEvent)) : Streams where
  running := state.running
  deliverQueuedEvents := state.deliverQueuedEvents
  bound := state.delegate.isSome
  generation := state.delegateGeneration
  active := state.activePointers
  queue := queue
  delivered := delivered

/-- The window as far as its pointer streams go. -/
def Host.streams (host : Host) : Streams := host.state.streams host.uiQueue host.delivered

namespace Streams

/-- A binding's streams so far and to come agree with the active pointers as long
as it is bound, and what it has received is a run of the automaton. -/
structure WellFormed (streams : Streams) : Prop where
  log_bound : ∀ entry ∈ streams.delivered, entry.1 ≤ streams.generation
  queue_bound : ∀ step ∈ streams.queue, ∀ generation, step.binding = some generation →
    generation ≤ streams.generation
  followed : ∀ generation pointer,
    (follow false (logMarks generation pointer streams.delivered)).isSome
  live : streams.bound → ∀ pointer,
    follow false (logMarks streams.generation pointer streams.delivered ++
      queueMarks streams.generation pointer streams.queue) =
        some (decide (pointer ∈ streams.active))
  distinct : streams.active.Nodup
  delivers : streams.bound ∨ streams.running → streams.deliverQueuedEvents
  finishing : ∀ generation, .finishShutdown generation ∈ streams.queue →
    streams.running = false ∧ (generation = streams.generation ∨ streams.bound = false)

variable {streams : Streams}

private theorem log_marks_above (generation : Nat) (pointer : PointerId)
    {log : List (Nat × DelegateEvent)} (below : ∀ entry ∈ log, entry.1 < generation) :
    logMarks generation pointer log = [] := by
  refine List.filterMap_eq_nil_iff.mpr fun entry member => ?_
  rw [if_neg (below entry member).ne]

private theorem queue_marks_above (generation : Nat) (pointer : PointerId) {queue : List UiStep}
    (below : ∀ step ∈ queue, ∀ own, step.binding = some own → own < generation) :
    queueMarks generation pointer queue = [] := by
  refine List.filterMap_eq_nil_iff.mpr fun step member => ?_
  cases step with
  | invoke own requireRunning event =>
    have lower := below _ member own rfl
    simp [UiStep.mark, lower.ne]
  | _ => rfl

/-- Posting a task for the current binding whose marks lead from the active
pointers before to those after. -/
theorem WellFormed.post (formed : streams.WellFormed) {task : List UiStep}
    {active : List PointerId}
    (ordinary : ∀ step ∈ task, step.Ordinary streams.generation) (distinct : active.Nodup)
    (moved : ∀ pointer, follow (decide (pointer ∈ streams.active))
      (queueMarks streams.generation pointer task) = some (decide (pointer ∈ active))) :
    WellFormed { streams with queue := streams.queue ++ task, active } := by
  refine ⟨formed.log_bound, ?_, formed.followed, ?_, distinct, formed.delivers, ?_⟩
  · intro step member generation named
    rcases List.mem_append.mp member with old | new
    · exact formed.queue_bound step old generation named
    · have own := ordinary step new
      cases step <;> cases named
      exact own.le
  · intro bound pointer
    show follow false (_ ++ queueMarks _ _ (streams.queue ++ task)) = _
    rw [queue_marks_append, ← List.append_assoc, follow_append, formed.live bound pointer,
      Option.bind_some, moved]
  · intro generation member
    rcases List.mem_append.mp member with old | new
    · exact formed.finishing generation old
    · exact (ordinary _ new).elim

/-- Only which pointers are active matters. -/
theorem WellFormed.reorder (formed : streams.WellFormed) {active : List PointerId}
    (distinct : active.Nodup) (same : ∀ pointer, pointer ∈ active ↔ pointer ∈ streams.active) :
    WellFormed { streams with active } where
  log_bound := formed.log_bound
  queue_bound := formed.queue_bound
  followed := formed.followed
  live bound pointer := by simpa [same] using formed.live bound pointer
  distinct := distinct
  delivers := formed.delivers
  finishing := formed.finishing

/-- The window stops with its last task posted. -/
theorem WellFormed.stop (formed : streams.WellFormed) (running : streams.running = true)
    {task : List UiStep}
    (bounded : ∀ step ∈ task, ∀ generation, step.binding = some generation →
      generation ≤ streams.generation)
    (finishes : ∀ generation, .finishShutdown generation ∈ task → generation = streams.generation)
    (moved : ∀ pointer, follow (decide (pointer ∈ streams.active))
      (queueMarks streams.generation pointer task) = some false) :
    WellFormed { streams with running := false, queue := streams.queue ++ task, active := [] } := by
  refine ⟨formed.log_bound, ?_, formed.followed, ?_, List.nodup_nil,
    fun _ => formed.delivers (Or.inr running), ?_⟩
  · intro step member generation named
    rcases List.mem_append.mp member with old | new
    · exact formed.queue_bound step old generation named
    · exact bounded step new generation named
  · intro bound pointer
    show follow false (_ ++ queueMarks _ _ (streams.queue ++ task)) = _
    rw [queue_marks_append, ← List.append_assoc, follow_append, formed.live bound pointer,
      Option.bind_some, moved]
    simp
  · intro generation member
    rcases List.mem_append.mp member with old | new
    · rw [(formed.finishing generation old).1] at running
      cases running
    · exact ⟨rfl, Or.inl (finishes generation new)⟩

/-- Letting the delegate go, under the same or a later generation, ends all
obligations towards it. -/
theorem WellFormed.unbind (formed : streams.WellFormed) {running deliverQueuedEvents : Bool}
    {generation : Nat} {active : List PointerId} (later : streams.generation ≤ generation)
    (distinct : active.Nodup) (stopped : running = true → streams.running = true ∧ deliverQueuedEvents = true) :
    WellFormed { streams with
      running, deliverQueuedEvents, bound := false, generation, active } where
  log_bound entry member := (formed.log_bound entry member).trans later
  queue_bound step member own named := (formed.queue_bound step member own named).trans later
  followed := formed.followed
  live bound := by cases bound
  distinct := distinct
  delivers use := by
    rcases use with bound | running
    · cases bound
    · exact (stopped running).2
  finishing own member := by
    refine ⟨?_, Or.inr rfl⟩
    cases running with
    | false => rfl
    | true => exact absurd (stopped rfl).1 (by simp [(formed.finishing own member).1])

/-- A new binding starts without history. -/
theorem WellFormed.bind (formed : streams.WellFormed) (running : streams.running = true) :
    WellFormed { streams with
      bound := true, generation := streams.generation + 1, active := [] } where
  log_bound entry member := (formed.log_bound entry member).trans (Nat.le_succ _)
  queue_bound step member own named :=
    (formed.queue_bound step member own named).trans (Nat.le_succ _)
  followed := formed.followed
  live _ pointer := by
    have log := log_marks_above (streams.generation + 1) pointer
      (fun entry member => Nat.lt_succ_of_le (formed.log_bound entry member))
    have queue := queue_marks_above (streams.generation + 1) pointer
      (fun step member own named => Nat.lt_succ_of_le (formed.queue_bound step member own named))
    show follow false (logMarks (streams.generation + 1) pointer streams.delivered ++
      queueMarks (streams.generation + 1) pointer streams.queue) = _
    rw [log, queue]
    simp [follow]
  distinct := List.nodup_nil
  delivers _ := formed.delivers (Or.inr running)
  finishing own member := by
    rw [(formed.finishing own member).1] at running
    cases running

/-- The next part of a UI task is taken from the queue without being delivered. -/
theorem WellFormed.skip {step : UiStep} {rest : List UiStep} (formed : streams.WellFormed)
    (queued : streams.queue = step :: rest)
    (unmarked : streams.bound → ∀ pointer, step.mark streams.generation pointer = none) :
    WellFormed { streams with queue := rest } where
  log_bound := formed.log_bound
  queue_bound later member := formed.queue_bound later (by simp [queued, member])
  followed := formed.followed
  live bound pointer := by
    have live := formed.live bound pointer
    rwa [queued, queueMarks, List.filterMap_cons_none (unmarked bound pointer)] at live
  distinct := formed.distinct
  delivers := formed.delivers
  finishing own member := formed.finishing own (by simp [queued, member])

/-- The next delegate call is delivered to the current binding. -/
theorem WellFormed.deliver {requireRunning : Bool} {event : DelegateEvent} {rest : List UiStep}
    (formed : streams.WellFormed) (bound : streams.bound = true)
    (queued : streams.queue = .invoke streams.generation requireRunning event :: rest) :
    WellFormed { streams with
      queue := rest, delivered := streams.delivered ++ [(streams.generation, event)] } := by
  have moved : ∀ pointer,
      logMarks streams.generation pointer streams.delivered ++
          queueMarks streams.generation pointer streams.queue =
        logMarks streams.generation pointer
            (streams.delivered ++ [(streams.generation, event)]) ++
          queueMarks streams.generation pointer rest := by
    intro pointer
    rw [queued, log_marks_append, List.append_assoc]
    congr 1
    cases marked : event.mark pointer <;>
      simp [queueMarks, logMarks, UiStep.mark, marked]
  constructor
  · intro entry member
    rcases List.mem_append.mp member with old | new
    · exact formed.log_bound entry old
    · rw [List.mem_singleton.mp new]
  · exact fun later member => formed.queue_bound later (by simp [queued, member])
  · intro generation pointer
    by_cases same : generation = streams.generation
    · -- The live binding's whole future is followed, so any part of it is.
      subst same
      have live := formed.live bound pointer
      rw [moved, follow_append] at live
      exact Option.isSome_iff_exists.mpr ((Option.bind_eq_some_iff.mp live).imp fun _ => And.left)
    · have unseen : logMarks generation pointer [(streams.generation, event)] = [] := by
        simp [logMarks, Ne.symm same]
      rw [log_marks_append, unseen, List.append_nil]
      exact formed.followed generation pointer
  · intro bound pointer
    rw [← formed.live bound pointer, moved]
  · exact formed.distinct
  · exact formed.delivers
  · exact fun own member => formed.finishing own (by simp [queued, member])

/-- The current binding is told something that no stream notices. -/
theorem WellFormed.tell {event : DelegateEvent} (formed : streams.WellFormed)
    (unmarked : ∀ pointer, event.mark pointer = none) :
    WellFormed { streams with
      delivered := streams.delivered ++ [(streams.generation, event)] } := by
  have same : ∀ generation pointer,
      logMarks generation pointer (streams.delivered ++ [(streams.generation, event)]) =
        logMarks generation pointer streams.delivered := by
    intro generation pointer
    simp [logMarks, unmarked]
  refine ⟨?_, formed.queue_bound, ?_, ?_, formed.distinct, formed.delivers, formed.finishing⟩
  · intro entry member
    rcases List.mem_append.mp member with old | new
    · exact formed.log_bound entry old
    · rw [List.mem_singleton.mp new]
  · intro generation pointer
    rw [same]
    exact formed.followed generation pointer
  · intro bound pointer
    rw [same]
    exact formed.live bound pointer

end Streams

section Tasks
variable (generation : Nat) (pointer : PointerId) (requireRunning : Bool)

@[simp] theorem queue_marks_nil : queueMarks generation pointer [] = [] := rfl

theorem queue_marks_cons (step : UiStep) (rest : List UiStep) :
    queueMarks generation pointer (step :: rest) =
      (step.mark generation pointer).toList ++ queueMarks generation pointer rest := by
  cases marked : step.mark generation pointer <;> simp [queueMarks, marked]

@[simp] theorem mark_invoke (event : DelegateEvent) :
    (UiStep.invoke generation requireRunning event).mark generation pointer =
      event.mark pointer := by
  simp [UiStep.mark]

/-- Cancelling distinct pointers closes exactly their streams. -/
theorem cancel_steps_follow {pointers : List PointerId} (distinct : pointers.Nodup) :
    follow (decide (pointer ∈ pointers))
      (queueMarks generation pointer (cancelSteps generation requireRunning pointers)) =
        some false := by
  induction pointers with
  | nil => rfl
  | cons first rest ih =>
    obtain ⟨unlisted, distinct⟩ := List.nodup_cons.mp distinct
    have tail := ih distinct
    rw [cancelSteps, List.map_cons, queue_marks_cons, mark_invoke, ← cancelSteps]
    by_cases same : first = pointer
    · subst same
      simpa [DelegateEvent.mark, follow_cons, Mark.follow, unlisted] using tail
    · have other : (pointer ∈ first :: rest) = (pointer ∈ rest) := by simp [Ne.symm same]
      simpa [DelegateEvent.mark, same, other] using tail

theorem cancel_steps_taken {active : List PointerId} (distinct : active.Nodup) :
    follow (decide (pointer ∈ active)) (queueMarks generation pointer
      (cancelSteps generation requireRunning (active.insertionSort (· ≤ ·)))) = some false := by
  have sorted : (active.insertionSort (· ≤ ·)).Nodup :=
    ((List.perm_insertionSort _ active).nodup_iff).mpr distinct
  have closed := cancel_steps_follow generation pointer requireRunning sorted
  simpa [List.mem_insertionSort] using closed

theorem cancel_steps_ordinary {pointers : List PointerId} {step : UiStep}
    (member : step ∈ cancelSteps generation requireRunning pointers) :
    step.Ordinary generation := by
  obtain ⟨_, _, rfl⟩ := List.mem_map.mp member
  rfl

end Tasks

section Frame
variable (host : Host) (queue : List UiStep) (delivered : List (Nat × DelegateEvent))

@[simp] theorem arm_frame_streams (state : HostWindowState) :
    state.armFrameLocked.2.streams queue delivered = state.streams queue delivered := rfl

@[simp] theorem invalidate_frame_streams (state : HostWindowState) :
    state.invalidateFrameLocked.streams queue delivered = state.streams queue delivered := rfl

@[simp] theorem report_error_streams (source : HostErrorSource) (failure : Failure) :
    (host.reportError source failure).streams = host.streams := rfl

@[simp] theorem report_post_streams : host.reportPost.streams = host.streams := rfl

/-- A posted task is queued and nothing else changes; a failed post changes
nothing but the reports. -/
theorem try_post_ui_cases (task : List UiStep) :
    ((host.tryPostUi task).1 = true ∧
      (host.tryPostUi task).2.streams =
        { host.streams with queue := host.streams.queue ++ task }) ∨
    ((host.tryPostUi task).1 = false ∧ (host.tryPostUi task).2.state = host.state ∧
      (host.tryPostUi task).2.uiQueue = host.uiQueue ∧
      (host.tryPostUi task).2.delivered = host.delivered) := by
  cases posted : host.postSucceeds <;> simp [tryPostUi, posted, Host.streams]
  rfl

theorem post_ui_cases (task : List UiStep) :
    ((host.postUi task).1 = true ∧
      (host.postUi task).2.streams =
        { host.streams with queue := host.streams.queue ++ task }) ∨
    ((host.postUi task).1 = false ∧ (host.postUi task).2.state = host.state ∧
      (host.postUi task).2.uiQueue = host.uiQueue ∧
      (host.postUi task).2.delivered = host.delivered) := by
  obtain ⟨posted, streams⟩ | ⟨posted, state, queue, delivered⟩ := try_post_ui_cases host task
  · exact Or.inl ⟨posted, by simpa only [postUi, if_pos posted] using streams⟩
  · refine Or.inr ⟨posted, ?_⟩
    simp only [postUi, posted]
    exact ⟨state, queue, delivered⟩

theorem release_delegate_streams (state : HostWindowState) :
    (releaseDelegateLocked state state.delegateGeneration).streams queue delivered =
      { state.streams queue delivered with
        deliverQueuedEvents := false
        bound := false
        generation := if state.delegateGeneration ≠ maxGeneration then
          state.delegateGeneration + 1 else state.delegateGeneration } := by
  simp [releaseDelegateLocked, HostWindowState.streams]

@[simp] theorem post_platform_streams (task : PlatformTask) :
    (host.postPlatform task).2.streams = host.streams := by
  unfold postPlatform
  split <;> rfl

@[simp] theorem post_frame_control_streams (control : FrameControl) :
    (host.postFrameControl control).2.streams = host.streams := by
  unfold postFrameControl
  split
  · rfl
  · exact post_platform_streams host _

@[simp] theorem frame_generation_exhausted_streams :
    host.frameGenerationExhausted.2.streams = host.streams := by
  simp only [frameGenerationExhausted]
  split <;> rfl

@[simp] theorem complete_platform_shutdown_streams :
    host.completePlatformShutdown.streams = host.streams := by
  unfold completePlatformShutdown
  split <;> rfl

@[simp] theorem schedule_platform_shutdown_streams (onPlatform : Bool) :
    (host.schedulePlatformShutdown onPlatform).streams = host.streams := by
  unfold schedulePlatformShutdown
  split
  · rfl
  · dsimp only
    split
    · exact complete_platform_shutdown_streams _
    · have posted := post_platform_streams
        { host with state := { host.state with platformShutdownPending := true } } .completeShutdown
      split <;> exact posted

end Frame

section Operations
variable {host : Host}

private theorem next_generation_le (generation : Nat) :
    generation ≤ if generation ≠ maxGeneration then generation + 1 else generation := by
  split
  · exact Nat.le_succ _
  · exact le_rfl

private theorem shutdown_task_marks (generation : Nat) (pointer : PointerId)
    (requests : List PendingClipboardRequest) (pointers : List PointerId) :
    queueMarks generation pointer (shutdownTask generation requests pointers) =
      queueMarks generation pointer (cancelSteps generation false pointers) ++ [.closing] := by
  have silent : queueMarks generation pointer (requests.map fun request =>
      .invoke generation false (.clipboardCanceled request)) = [] := by
    refine List.filterMap_eq_nil_iff.mpr fun step member => ?_
    obtain ⟨request, _, rfl⟩ := List.mem_map.mp member
    exact mark_invoke generation pointer false _
  simp only [shutdownTask, List.cons_append, queue_marks_cons, queue_marks_append, silent,
    mark_invoke, queue_marks_nil]
  rfl

/-- A shutdown closes the streams of the current binding, or lets it go. -/
theorem shutdown_kept (formed : host.streams.WellFormed) (onPlatform : Bool) :
    (host.shutdown onPlatform).streams.WellFormed := by
  unfold Host.shutdown
  split
  · split
    · simpa using formed
    · exact formed
  rename_i running
  replace running : host.state.running = true := by simpa using running
  dsimp only
  generalize stopped : { host with state := host.state.stopLocked.takeActivePointersLocked.2 } = next
  have generation : next.state.delegateGeneration = host.state.delegateGeneration := by
    rw [← stopped]; rfl
  have streams : next.streams = { host.streams with running := false, active := [] } := by
    rw [← stopped]; rfl
  obtain ⟨posted, queued⟩ | ⟨posted, state, queue, delivered⟩ := post_ui_cases next _
  · rw [if_pos posted, queued, streams]
    refine formed.stop running ?_ ?_ ?_
    · intro step member generation named
      simp only [shutdownTask, cancelSteps, List.mem_append, List.mem_cons, List.mem_map,
        List.not_mem_nil, or_false] at member
      rcases member with ((rfl | ⟨_, _, rfl⟩) | ⟨_, _, rfl⟩) | rfl | rfl <;> cases named <;>
        exact le_rfl
    · intro generation member
      simp only [shutdownTask, cancelSteps, List.mem_append, List.mem_cons, List.mem_map,
        List.not_mem_nil, or_false] at member
      rcases member with ((same | ⟨_, _, same⟩) | ⟨_, _, same⟩) | same | same <;> cases same
      rfl
    · intro pointer
      have cancelled := cancel_steps_taken host.streams.generation pointer false formed.distinct
      show follow _ (queueMarks host.streams.generation pointer
        (shutdownTask host.streams.generation _ (host.streams.active.insertionSort (· ≤ ·)))) = _
      rw [shutdown_task_marks, follow_append, cancelled]
      rfl
  · rw [if_neg (by simp [posted]), schedule_platform_shutdown_streams]
    show ((releaseDelegateLocked _ _).streams _ _).WellFormed
    rw [state, queue, delivered, ← generation, release_delegate_streams]
    subst stopped
    exact formed.unbind (next_generation_le _) List.nodup_nil fun running => by cases running

theorem settle_frame_kept (formed : host.streams.WellFormed) (control : FrameControl)
    (onPlatform : Bool) : (host.settleFrame control onPlatform).streams.WellFormed := by
  have controlled : (host.postFrameControl control).2.streams.WellFormed := by simpa using formed
  simp only [settleFrame]
  split
  · exact shutdown_kept controlled onPlatform
  · have checked : (host.postFrameControl control).2.frameGenerationExhausted.2.streams.WellFormed := by
      simpa using controlled
    split
    · exact shutdown_kept checked onPlatform
    · exact checked

/-- A task that no stream notices may be posted for the current binding. -/
theorem post_quiet_kept (formed : host.streams.WellFormed) {task : List UiStep}
    (quiet : ∀ step ∈ task, step.Quiet host.state.delegateGeneration) :
    (host.postUi task).2.streams.WellFormed := by
  obtain ⟨_, queued⟩ | ⟨_, state, queue, delivered⟩ := post_ui_cases host task
  · rw [queued]
    refine formed.post (fun step member => (quiet step member).1) formed.distinct fun pointer => ?_
    have unmarked : queueMarks host.streams.generation pointer task = [] :=
      List.filterMap_eq_nil_iff.mpr fun step member => (quiet step member).2 pointer
    rw [unmarked]
    rfl
  · rw [Host.streams, state, queue, delivered]
    exact formed

/-- How a driver call that posts a quiet task goes on. -/
theorem post_settle_kept (formed : host.streams.WellFormed) {task : List UiStep}
    (quiet : ∀ step ∈ task, step.Quiet host.state.delegateGeneration) (control : FrameControl) :
    (if ¬ (host.postUi task).1 then (host.postUi task).2.shutdown true
      else (host.postUi task).2.settleFrame control true).streams.WellFormed := by
  have posted := post_quiet_kept formed quiet
  split
  · exact shutdown_kept posted true
  · exact settle_frame_kept posted control true

theorem post_or_shutdown_kept (formed : host.streams.WellFormed) {task : List UiStep}
    (quiet : ∀ step ∈ task, step.Quiet host.state.delegateGeneration) (onPlatform : Bool) :
    (if (host.postUi task).1 then (host.postUi task).2
      else (host.postUi task).2.shutdown onPlatform).streams.WellFormed := by
  have posted := post_quiet_kept formed quiet
  split
  · exact posted
  · exact shutdown_kept posted onPlatform

theorem request_frame_kept (formed : host.streams.WellFormed) (onPlatform : Bool) :
    (host.requestFrame onPlatform).2.streams.WellFormed := by
  simp only [Host.requestFrame, requestFrameLocked]
  split
  · exact formed
  · rename_i generation state taken
    split at taken
    · cases taken
    cases taken
    dsimp only
    generalize checked : ({ host with state := _ } : Host).frameGenerationExhausted = result
    have kept : result.2.streams.WellFormed := by
      rw [← checked, frame_generation_exhausted_streams]
      exact formed
    split
    · exact shutdown_kept kept onPlatform
    · split
      · rw [post_frame_control_streams]
        exact kept
      · refine shutdown_kept ?_ onPlatform
        rw [post_frame_control_streams]
        exact kept

theorem set_metrics_kept (formed : host.streams.WellFormed) (logicalSize : Size)
    (physicalWidth physicalHeight : Nat) (devicePixelRatio : ℚ) :
    (host.setMetrics logicalSize physicalWidth physicalHeight
      devicePixelRatio).streams.WellFormed := by
  unfold Host.setMetrics
  obtain ⟨outcome, rfl | rfl, done⟩ | ⟨metrics, _, _, done⟩ := set_metrics_cases host.state
    logicalSize physicalWidth physicalHeight devicePixelRatio
  · rw [done]
    exact formed
  · rw [done]
    exact formed
  · rw [done]
    refine post_settle_kept ?_ (fun step member => ?_) _
    · exact formed
    rw [List.mem_singleton.mp member]
    exact ⟨rfl, fun pointer => by simp [UiStep.mark, DelegateEvent.mark, DelegateEvent.closes]⟩

theorem set_surface_state_kept (formed : host.streams.WellFormed) (surface : HostSurfaceState) :
    (host.setSurfaceState surface).streams.WellFormed := by
  unfold Host.setSurfaceState
  split
  · exact formed
  split
  · exact formed
  obtain ⟨outcome, rfl | rfl, done⟩ | ⟨metrics, metricsChanged, _, ⟨_, done⟩ | ⟨_, _, done⟩⟩ :=
    set_surface_state_cases host.state surface
  · rw [done]
    exact formed
  · rw [done]
    refine shutdown_kept ?_ true
    exact formed
  all_goals
    rw [done]
    refine post_settle_kept ?_ (fun step member => ?_) _
    · exact formed
    simp only [surfaceTask, List.mem_append, List.mem_singleton] at member
    rcases member with member | rfl
    · split at member
      · rw [List.mem_singleton.mp member]
        exact ⟨rfl, fun pointer => by simp [UiStep.mark, DelegateEvent.mark, DelegateEvent.closes]⟩
      · cases member
    · exact ⟨rfl, fun pointer => by simp [UiStep.mark, DelegateEvent.mark, DelegateEvent.closes]⟩

theorem frame_pulse_kept (formed : host.streams.WellFormed) (timestamp : Int) (generation : Nat) :
    (host.framePulse timestamp generation).streams.WellFormed := by
  unfold Host.framePulse
  obtain ⟨outcome, rfl | rfl, done⟩ | ⟨_, _, _, _, done⟩ | ⟨_, _, _, _, done⟩ :=
    frame_pulse_cases host.state timestamp generation
  · rw [done]
    exact formed
  · rw [done]
    exact formed
  · rw [done]
    refine shutdown_kept ?_ true
    exact formed
  · rw [done]
    refine post_or_shutdown_kept ?_ (fun step member => ?_) true
    · exact formed
    · simp only [List.mem_cons, List.not_mem_nil, or_false] at member
      rcases member with rfl | rfl <;> exact ⟨trivial, fun _ => rfl⟩

/-- A driver call that moves streams posts a task that accounts for it; when that
fails the move is undone before the shutdown cancels what is open. -/
theorem try_post_kept (formed : host.streams.WellFormed) (rest : List PointerId)
    (goOn : Host → Host) {next : Host} {task : List UiStep} {back : List PointerId}
    {undo : HostWindowState → HostWindowState}
    (moved : next.streams = { host.streams with active := rest }) (distinct : rest.Nodup)
    (undone : (undo next.state).streams next.uiQueue next.delivered =
      { host.streams with active := back })
    (whole : back.Nodup ∧ ∀ pointer, pointer ∈ back ↔ pointer ∈ host.state.activePointers)
    (ordinary : ∀ step ∈ task, step.Ordinary host.state.delegateGeneration)
    (followed : ∀ pointer, follow (decide (pointer ∈ host.state.activePointers))
      (queueMarks host.state.delegateGeneration pointer task) = some (decide (pointer ∈ rest)))
    (kept : ∀ later : Host, later.streams.WellFormed → (goOn later).streams.WellFormed) :
    (if ¬ (next.tryPostUi task).1 then
      (reportPost { (next.tryPostUi task).2 with
        state := undo (next.tryPostUi task).2.state }).shutdown true
      else goOn (next.tryPostUi task).2).streams.WellFormed := by
  obtain ⟨posted, queued⟩ | ⟨posted, state, queue, delivered⟩ := try_post_ui_cases next task
  · rw [if_neg (by simp [posted])]
    refine kept _ ?_
    rw [queued, moved]
    exact formed.post ordinary distinct followed
  · rw [if_pos (by simp [posted])]
    refine shutdown_kept ?_ true
    show ((undo (next.tryPostUi task).2.state).streams (next.tryPostUi task).2.uiQueue
      (next.tryPostUi task).2.delivered).WellFormed
    rw [state, queue, delivered, undone]
    exact formed.reorder whole.1 whole.2

private theorem restore_pointers_streams (state : HostWindowState) (queue : List UiStep)
    (delivered : List (Nat × DelegateEvent)) (pointers : List PointerId)
    (running : state.running = true) :
    (restorePointersLocked state state.delegateGeneration pointers).streams queue delivered =
      { state.streams queue delivered with active := pointers ∪ state.activePointers } := by
  rw [restorePointersLocked, if_pos ⟨running, rfl⟩]
  rfl

private theorem taken_whole (active : List PointerId) :
    (active.insertionSort (· ≤ ·) ∪ []).Nodup ∧
      ∀ pointer, pointer ∈ active.insertionSort (· ≤ ·) ∪ [] ↔ pointer ∈ active :=
  ⟨List.Nodup.union _ List.nodup_nil, by simp⟩

private theorem quiet_follow {generation : Nat} {task : List UiStep}
    (quiet : ∀ step ∈ task, step.Quiet generation) (pointer : PointerId) (isOpen : Bool) :
    follow isOpen (queueMarks generation pointer task) = some isOpen := by
  have unmarked : queueMarks generation pointer task = [] :=
    List.filterMap_eq_nil_iff.mpr fun step member => (quiet step member).2 pointer
  rw [unmarked]
  rfl

/-- Cancellations followed by closing notices leave every stream closed. -/
private theorem cut_follow {generation : Nat} {active : List PointerId} {notices : List UiStep}
    (distinct : active.Nodup)
    (closing : ∀ pointer, follow false (queueMarks generation pointer notices) = some false)
    (pointer : PointerId) :
    follow (decide (pointer ∈ active)) (queueMarks generation pointer
      (cancelSteps generation true (active.insertionSort (· ≤ ·)) ++ notices)) =
        some (decide (pointer ∈ ([] : List PointerId))) := by
  rw [queue_marks_append, follow_append, cancel_steps_taken generation pointer true distinct,
    Option.bind_some, closing]
  rfl

private theorem unfocus_notice_follow (generation : Nat) (pointer : PointerId) :
    follow false (queueMarks generation pointer [.invoke generation true (.focusChanged false)]) =
      some false := by
  rw [queue_marks_cons, mark_invoke]
  rfl

private theorem hide_notices_follow (generation : Nat) (focusLost : Bool) (pointer : PointerId) :
    follow false (queueMarks generation pointer
      ((if focusLost then [.invoke generation true (.focusChanged false)] else []) ++
        [.invoke generation true (.visibilityChanged false)])) = some false := by
  cases focusLost <;>
    simp only [Bool.false_eq_true, if_true, if_false, queue_marks_append, queue_marks_cons,
      mark_invoke] <;> rfl

theorem set_visible_kept (formed : host.streams.WellFormed) (visible : Bool) :
    (host.setVisible visible).streams.WellFormed := by
  unfold Host.setVisible
  obtain done | ⟨rfl, running, _, done⟩ | ⟨rfl, running, done⟩ := set_visible_cases host.state visible
  · rw [done]
    exact formed
  · rw [done]
    have quiet : ∀ step ∈ visibilityTask host.state.delegateGeneration true false [],
        step.Quiet host.state.delegateGeneration := by
      intro step member
      rw [List.mem_singleton.mp member]
      exact ⟨rfl, fun pointer => by simp [UiStep.mark, DelegateEvent.mark, DelegateEvent.closes]⟩
    refine try_post_kept formed host.state.activePointers (fun later => later.settleFrame _ true)
      ?_ formed.distinct (restore_pointers_streams _ _ _ [] ?_) ⟨formed.distinct, fun _ => Iff.rfl⟩
      (fun step member => (quiet step member).1) (fun pointer => quiet_follow quiet pointer _)
      (fun later kept => settle_frame_kept kept _ true)
    · rfl
    · exact running
  · rw [done]
    refine try_post_kept formed [] (fun later => later.settleFrame _ true) ?_ List.nodup_nil
      (restore_pointers_streams _ _ _ _ ?_) (taken_whole _) ?_ (cut_follow formed.distinct (hide_notices_follow _ _))
      (fun later kept => settle_frame_kept kept _ true)
    · rfl
    · exact running
    · intro step member
      simp only [visibilityTask, List.mem_append, List.mem_singleton] at member
      rcases member with cancel | focus | rfl
      · exact cancel_steps_ordinary _ _ cancel
      · split at focus
        · rw [List.mem_singleton.mp focus]
          rfl
        · cases focus
      · rfl

theorem set_focused_kept (formed : host.streams.WellFormed) (focused : Bool) :
    (host.setFocused focused).streams.WellFormed := by
  unfold Host.setFocused
  obtain ⟨outcome, rfl | rfl, done⟩ | ⟨rfl, running, done⟩ | ⟨rfl, running, _, done⟩ :=
    set_focused_cases host.state focused
  · rw [done]
    exact formed
  · rw [done]
    exact formed
  · rw [done]
    have quiet : ∀ step ∈ focusTask host.state.delegateGeneration true [],
        step.Quiet host.state.delegateGeneration := by
      intro step member
      rw [List.mem_singleton.mp member]
      exact ⟨rfl, fun pointer => by simp [UiStep.mark, DelegateEvent.mark, DelegateEvent.closes]⟩
    refine try_post_kept formed host.state.activePointers id ?_ formed.distinct
      (restore_pointers_streams _ _ _ [] ?_) ⟨formed.distinct, fun _ => Iff.rfl⟩
      (fun step member => (quiet step member).1) (fun pointer => quiet_follow quiet pointer _)
      (fun later kept => kept)
    · rfl
    · exact running
  · rw [done]
    refine try_post_kept formed [] id ?_ List.nodup_nil (restore_pointers_streams _ _ _ _ ?_)
      (taken_whole _) ?_ (cut_follow formed.distinct (unfocus_notice_follow _))
      (fun later kept => kept)
    · rfl
    · exact running
    · intro step member
      simp only [focusTask, List.mem_append, List.mem_singleton] at member
      rcases member with cancel | rfl
      · exact cancel_steps_ordinary _ _ cancel
      · rfl

private theorem mark_same (event : PointerEvent) :
    DelegateEvent.mark event.pointer (.pointerEvent event) = some (.phase event.phase) := by
  simp [DelegateEvent.mark]

private theorem mark_other {event : PointerEvent} {pointer : PointerId}
    (other : event.pointer ≠ pointer) : DelegateEvent.mark pointer (.pointerEvent event) = none := by
  simp [DelegateEvent.mark, other]

/-- An event that is let through moves its own stream as the automaton does. -/
private theorem deliver_follow {active next : List PointerId} {event : PointerEvent}
    (own : Mark.follow (decide (event.pointer ∈ active)) (.phase event.phase) =
      some (decide (event.pointer ∈ next)))
    (others : ∀ pointer, event.pointer ≠ pointer → (pointer ∈ next ↔ pointer ∈ active))
    (pointer : PointerId) :
    follow (decide (pointer ∈ active)) (DelegateEvent.mark pointer (.pointerEvent event)).toList =
      some (decide (pointer ∈ next)) := by
  by_cases same : event.pointer = pointer
  · subst same
    rw [mark_same, Option.toList_some, follow_cons, own]
    rfl
  · rw [mark_other same]
    simp [others pointer same, follow]

/-- What `send_pointer` lets through follows the automaton, and taking it back
restores the active pointers. -/
theorem pointer_phase_deliver {active next : List PointerId} {event : PointerEvent}
    (distinct : active.Nodup) (decided : pointerPhase active event = (.deliver, next)) :
    next.Nodup ∧
      (∀ pointer, follow (decide (pointer ∈ active))
        (DelegateEvent.mark pointer (.pointerEvent event)).toList =
          some (decide (pointer ∈ next))) ∧
      (undoPhase next event).Nodup ∧
      ∀ pointer, pointer ∈ undoPhase next event ↔ pointer ∈ active := by
  have erased : event.pointer ∈ active →
      ∀ pointer, pointer ∈ event.pointer :: active.filter (· ≠ event.pointer) ↔
        pointer ∈ active := by
    intro known pointer
    by_cases same : pointer = event.pointer <;> simp [same, known]
  unfold pointerPhase at decided
  cases phase : event.phase with
  | unknown raw =>
    simp only [phase] at decided
    cases decided
  | down =>
    simp only [phase] at decided
    split at decided <;> cases decided
    rename_i unknown
    replace unknown : event.pointer ∉ active := by simpa using unknown
    have extended : (event.pointer :: active).Nodup := List.nodup_cons.mpr ⟨unknown, distinct⟩
    refine ⟨extended, deliver_follow ?_ ?_, ?_, ?_⟩
    · simp [phase, unknown, Mark.follow]
    · intro pointer other
      simp [Ne.symm other]
    · simpa only [undoPhase, phase] using extended.filter _
    · intro pointer
      by_cases same : pointer = event.pointer <;> simp [undoPhase, phase, same, unknown]
  | move =>
    simp only [phase] at decided
    split at decided <;> cases decided
    rename_i known
    replace known : event.pointer ∈ active := by simpa using known
    refine ⟨distinct, deliver_follow ?_ fun _ _ => Iff.rfl, ?_, ?_⟩
    · simp [phase, known, Mark.follow]
    · simpa only [undoPhase, phase] using distinct
    · simp [undoPhase, phase]
  | up | cancel =>
    simp only [phase] at decided
    split at decided <;> cases decided
    rename_i known
    replace known : event.pointer ∈ active := by simpa using known
    refine ⟨distinct.filter _, deliver_follow ?_ ?_, ?_, ?_⟩
    · simp [phase, known, Mark.follow]
    · intro pointer other
      simp [Ne.symm other]
    · simp only [undoPhase, phase]
      exact List.nodup_cons.mpr ⟨by simp, distinct.filter _⟩
    · simpa only [undoPhase, phase] using erased known

private theorem undo_pointer_streams (state : HostWindowState) (queue : List UiStep)
    (delivered : List (Nat × DelegateEvent)) (event : PointerEvent)
    (running : state.running = true) :
    (undoPointerLocked state state.delegateGeneration event).streams queue delivered =
      { state.streams queue delivered with active := undoPhase state.activePointers event } := by
  rw [undoPointerLocked, if_pos ⟨running, rfl⟩]
  rfl

theorem send_pointer_kept (formed : host.streams.WellFormed) (event : PointerEvent) :
    (host.sendPointer event).streams.WellFormed := by
  unfold Host.sendPointer sendPointerLocked
  by_cases refused : ¬ host.state.running ∨ ¬ host.state.visible ∨ event.x.isNone ∨ event.y.isNone
  · rw [if_pos refused]
    cases host.state.running <;> exact formed
  rw [if_neg refused]
  have running : host.state.running = true := by simpa using (not_or.mp refused).1
  cases phased : pointerPhase host.state.activePointers event with | mk outcome active =>
  cases outcome with
  | ignored =>
    rw [pointer_phase_refused phased (by simp)]
    exact formed
  | invalid =>
    rw [pointer_phase_refused phased (by simp)]
    exact formed
  | deliver =>
    obtain ⟨distinct, followed, whole⟩ := pointer_phase_deliver formed.distinct phased
    refine try_post_kept formed active id ?_ distinct (undo_pointer_streams _ _ _ _ ?_) whole ?_ ?_
      (fun later kept => kept)
    · rfl
    · exact running
    · intro step member
      rw [List.mem_singleton.mp member]
      rfl
    · intro pointer
      have marks := queue_marks_cons host.state.delegateGeneration pointer
        (.invoke host.state.delegateGeneration true (.pointerEvent event)) []
      rw [mark_invoke, queue_marks_nil, List.append_nil] at marks
      exact (congrArg (follow _) marks).trans (followed pointer)

theorem bind_delegate_kept (formed : host.streams.WellFormed) (delegate : Nat)
    (onPlatform : Bool) : (host.bindDelegate delegate onPlatform).2.streams.WellFormed := by
  unfold Host.bindDelegate
  split
  · exact formed
  rename_i running
  split
  · exact formed
  have quiet : ∀ step ∈ createdTask (host.state.delegateGeneration + 1) host.state.metrics
      host.state.visible, step.Quiet (host.state.delegateGeneration + 1) := by
    intro step member
    rcases List.mem_cons.mp member with rfl | member
    · exact ⟨rfl, fun pointer => by simp [UiStep.mark, DelegateEvent.mark, DelegateEvent.closes]⟩
    · split at member
      · rw [List.mem_singleton.mp member]
        exact ⟨rfl, fun pointer => by simp [UiStep.mark, DelegateEvent.mark, DelegateEvent.closes]⟩
      · cases member
  dsimp only
  generalize bound : ({ host with
    state := { host.state with
      delegateGeneration := host.state.delegateGeneration + 1, delegate := some delegate
      activePointers := [] } } : Host) = next
  have kept : next.streams.WellFormed := by
    rw [← bound]
    exact formed.bind (by rwa [not_not] at running)
  have posted := post_quiet_kept kept (by rw [← bound]; exact quiet)
  split
  · exact posted
  · exact shutdown_kept posted onPlatform

theorem reset_binding_kept (formed : host.streams.WellFormed) (generation : Nat) :
    (host.resetBinding generation).streams.WellFormed := by
  unfold Host.resetBinding
  split
  · exact formed.unbind (next_generation_le _) List.nodup_nil fun running =>
      ⟨running, formed.delivers (Or.inr running)⟩
  · exact formed

theorem expire_delegate_kept (formed : host.streams.WellFormed) :
    ({ host with state := { host.state with delegate := none } } : Host).streams.WellFormed :=
  formed.unbind le_rfl formed.distinct fun running =>
    ⟨running, formed.delivers (Or.inr running)⟩

private theorem invokes_bound {state : HostWindowState} {generation : Nat} {requireRunning : Bool}
    (reached : invokes state generation requireRunning = true) :
    state.delegateGeneration = generation ∧ state.delegate.isSome = true := by
  simp only [invokes, decide_eq_true_eq] at reached
  exact reached.2

/-- A delegate call of the current binding is delivered; any other is dropped. -/
theorem invoke_kept {generation : Nat} {requireRunning : Bool} {event : DelegateEvent}
    {rest : List UiStep} (formed : host.streams.WellFormed)
    (queued : host.uiQueue = .invoke generation requireRunning event :: rest) :
    (({ host with uiQueue := rest } : Host).invokeDelegate generation requireRunning
      event).streams.WellFormed := by
  unfold Host.invokeDelegate
  split
  · rename_i reached
    obtain ⟨rfl, bound⟩ := invokes_bound reached
    exact formed.deliver bound queued
  · rename_i unreached
    refine formed.skip queued fun bound pointer => ?_
    have other : generation ≠ host.streams.generation := by
      rintro rfl
      refine unreached ?_
      have delivers : host.state.deliverQueuedEvents = true := formed.delivers (Or.inl bound)
      have held : host.state.delegate.isSome = true := bound
      simp [invokes, delivers, held]
      rfl
    simp [UiStep.mark, other]

/-- The end of a shutdown task keeps a stopped window well formed. -/
theorem release_delegate_kept {state : HostWindowState} {queue : List UiStep}
    {delivered : List (Nat × DelegateEvent)} {generation : Nat}
    (formed : (state.streams queue delivered).WellFormed) (stopped : state.running = false)
    (named : generation = state.delegateGeneration ∨ state.delegate = none) :
    ((releaseDelegateLocked state generation).streams queue delivered).WellFormed := by
  have halted : state.running = true → state.running = true ∧ false = true := by
    simp [stopped]
  by_cases same : state.delegateGeneration = generation
  · subst same
    rw [release_delegate_streams]
    exact formed.unbind (next_generation_le _) formed.distinct halted
  · have unbound : state.delegate = none := named.resolve_left (Ne.symm same)
    have released : (releaseDelegateLocked state generation).streams queue delivered =
        { state.streams queue delivered with deliverQueuedEvents := false, bound := false } := by
      simp [releaseDelegateLocked, same, HostWindowState.streams, unbound]
    rw [released]
    exact formed.unbind le_rfl formed.distinct halted

theorem run_ui_step_kept {step : UiStep} {rest : List UiStep} (formed : host.streams.WellFormed)
    (queued : host.uiQueue = step :: rest) :
    (({ host with uiQueue := rest } : Host).runUiStep step).streams.WellFormed := by
  cases step with
  | invoke generation requireRunning event => exact invoke_kept formed queued
  | frameRequested generation request =>
    have skipped := formed.skip queued fun _ _ => rfl
    simp only [Host.runUiStep, Host.invokeDelegate]
    split
    · split
      · rename_i reached
        obtain ⟨rfl, _⟩ := invokes_bound reached
        exact skipped.tell fun _ => rfl
      · exact skipped
    · exact skipped
  | frameDelivered =>
    have skipped := formed.skip queued fun _ _ => rfl
    refine settle_frame_kept ?_ _ false
    exact skipped
  | dropSemantics => exact formed.skip queued fun _ _ => rfl
  | finishShutdown generation =>
    have skipped := formed.skip queued fun _ _ => rfl
    obtain ⟨stopped, named⟩ := formed.finishing generation (by
      rw [show host.streams.queue = _ from queued]
      exact List.mem_cons_self)
    rw [Host.runUiStep, schedule_platform_shutdown_streams]
    refine release_delegate_kept skipped stopped (named.imp_right fun unbound => ?_)
    exact Option.isSome_eq_false_iff.mp unbound |> Option.isNone_iff_eq_none.mp

theorem run_platform_task_kept (formed : host.streams.WellFormed) (fails : Bool)
    (task : PlatformTask) : (host.runPlatformTask fails task).streams.WellFormed := by
  cases task with
  | frameControl control =>
    simp only [Host.runPlatformTask]
    split
    · split
      · rw [report_error_streams]
        unfold frameRequestFailedLocked
        split <;> exact formed
      · exact formed
    · exact formed
  | completeShutdown =>
    rw [Host.runPlatformTask, complete_platform_shutdown_streams]
    exact formed

/-- Whatever happens to a window, its streams stay well formed. -/
theorem perform_kept {next : Host} (formed : host.streams.WellFormed) (call : Host.Call)
    (performed : host.perform call = some next) : next.streams.WellFormed := by
  cases call with
  | runUi =>
    simp only [Host.perform] at performed
    split at performed
    · cases performed
    · rename_i step rest queued
      cases performed
      exact run_ui_step_kept formed queued
  | runPlatform fails =>
    simp only [Host.perform] at performed
    split at performed
    · cases performed
    · cases performed
      refine run_platform_task_kept ?_ fails _
      exact formed
  | bindDelegate delegate onPlatform =>
    cases performed
    exact bind_delegate_kept formed delegate onPlatform
  | resetBinding generation =>
    cases performed
    exact reset_binding_kept formed generation
  | expireDelegate =>
    cases performed
    exact expire_delegate_kept formed
  | requestFrame onPlatform =>
    cases performed
    exact request_frame_kept formed onPlatform
  | shutdown onPlatform =>
    cases performed
    exact shutdown_kept formed onPlatform
  | setMetrics logicalSize physicalWidth physicalHeight devicePixelRatio =>
    cases performed
    exact set_metrics_kept formed logicalSize physicalWidth physicalHeight devicePixelRatio
  | setVisible visible =>
    cases performed
    exact set_visible_kept formed visible
  | setFocused focused =>
    cases performed
    exact set_focused_kept formed focused
  | framePulse timestamp generation =>
    cases performed
    exact frame_pulse_kept formed timestamp generation
  | sendPointer event =>
    cases performed
    exact send_pointer_kept formed event
  | setSurfaceState surface =>
    cases performed
    exact set_surface_state_kept formed surface

end Operations

/-- The streams of every window in every run are well formed. -/
theorem streams_well_formed {host : Host} (reached : Transition.Reachable hostMachine host) :
    host.streams.WellFormed := by
  refine reached.invariant (fun host => host.streams.WellFormed) ?_
    fun state action next formed _ stepped => ?_
  · rintro host ⟨id, size, width, height, ratio, visible, state, created, rfl⟩
    have fresh : state = { id, metrics := ⟨size, width, height, ratio, 1⟩, visible } := by
      simp only [createHostWindow] at created
      split at created
      · cases created
      · split at created
        · cases created
        · cases created
          rfl
    subst fresh
    refine ⟨?_, ?_, ?_, ?_, List.nodup_nil, fun _ => rfl, ?_⟩
    · intro entry member
      cases member
    · intro step member
      cases member
    · exact fun _ _ => rfl
    · intro bound
      cases bound
    · intro generation member
      cases member
  · refine perform_kept ?_ action.2 stepped
    exact formed

/-- A whole stream: `down move* (up | cancel)`. -/
def stroke : Language PointerPhase := {[.down]} * {[.move]}∗ * ({[.up]} + {[.cancel]})

private theorem stroke_mem (moves : Nat) {last : PointerPhase} (ends : last = .up ∨ last = .cancel) :
    .down :: (List.replicate moves .move ++ [last]) ∈ stroke := by
  have moved : List.replicate moves PointerPhase.move ∈ ({[.move]} : Language PointerPhase)∗ :=
    Language.mem_kstar.mpr ⟨List.replicate moves [.move], by simp, fun move member => by
      rw [List.eq_of_mem_replicate member]
      rfl⟩
  have started : [PointerPhase.down] ∈ ({[.down]} : Language PointerPhase) := rfl
  have ended : [last] ∈ ({[.up]} + {[.cancel]} : Language PointerPhase) := by
    rcases ends with rfl | rfl
    · exact Or.inl rfl
    · exact Or.inr rfl
  exact Language.append_mem_mul (Language.append_mem_mul started moved) ended

private theorem strokes_cons {first rest : List PointerPhase} (whole : first ∈ stroke)
    (more : rest ∈ stroke∗) : first ++ rest ∈ stroke∗ := by
  obtain ⟨strokes, rfl, all⟩ := Language.mem_kstar.mp more
  exact Language.mem_kstar.mpr ⟨first :: strokes, rfl, by simpa using ⟨whole, all⟩⟩

/-- What the automaton accepts as closed is a sequence of whole streams. -/
theorem strokes_of_follow : ∀ (phases : List PointerPhase) (moves : Nat),
    (follow false (phases.map .phase) = some false → phases ∈ stroke∗) ∧
    (follow true (phases.map .phase) = some false →
      .down :: (List.replicate moves .move ++ phases) ∈ stroke∗) := by
  intro phases
  induction phases with
  | nil =>
    intro moves
    exact ⟨fun _ => Language.nil_mem_kstar stroke, fun followed => by cases followed⟩
  | cons phase rest ih =>
    intro moves
    have ends (last : PointerPhase) (stops : last = .up ∨ last = .cancel)
        (followed : follow false (rest.map .phase) = some false) :
        .down :: (List.replicate moves .move ++ last :: rest) ∈ stroke∗ := by
      have split : .down :: (List.replicate moves .move ++ last :: rest) =
          .down :: (List.replicate moves .move ++ [last]) ++ rest := by simp
      rw [split]
      exact strokes_cons (stroke_mem moves stops) ((ih 0).1 followed)
    cases phase with
    | down => exact ⟨fun followed => (ih 0).2 followed, fun followed => by cases followed⟩
    | move =>
      refine ⟨(fun followed => by cases followed), fun followed => ?_⟩
      have longer := (ih (moves + 1)).2 followed
      rwa [List.replicate_succ', List.append_assoc] at longer
    | up => exact ⟨(fun followed => by cases followed), ends .up (Or.inl rfl)⟩
    | cancel => exact ⟨(fun followed => by cases followed), ends .cancel (Or.inr rfl)⟩
    | unknown raw => exact ⟨(fun followed => by cases followed), fun followed => by cases followed⟩

/-- What one binding was told about one pointer. -/
def streamPhases (generation : Nat) (pointer : PointerId) (log : List (Nat × DelegateEvent)) :
    List PointerPhase :=
  log.filterMap fun entry =>
    match entry with
    | (own, .pointerEvent event) =>
      if own = generation ∧ event.pointer = pointer then some event.phase else none
    | _ => none

def Mark.toPhase : Mark → Option PointerPhase
  | .phase kind => some kind
  | .closing => none

private theorem follow_forget (marks : List Mark) (isOpen : Bool) {last : Bool}
    (followed : follow isOpen marks = some last) :
    follow isOpen ((marks.filterMap Mark.toPhase).map .phase) = some last := by
  induction marks generalizing isOpen with
  | nil => exact followed
  | cons mark rest ih =>
    rw [follow_cons] at followed
    obtain ⟨next, stepped, went⟩ := Option.bind_eq_some_iff.mp followed
    cases mark with
    | phase phase =>
      show follow isOpen (.phase phase :: _) = _
      rw [follow_cons, stepped, Option.bind_some]
      exact ih next went
    | closing =>
      cases isOpen <;> cases stepped
      exact ih false went

private theorem stream_phases_eq (generation : Nat) (pointer : PointerId)
    (log : List (Nat × DelegateEvent)) :
    streamPhases generation pointer log =
      (logMarks generation pointer log).filterMap Mark.toPhase := by
  rw [streamPhases, logMarks, List.filterMap_filterMap]
  refine List.filterMap_congr fun entry _ => ?_
  obtain ⟨own, event⟩ := entry
  by_cases same : own = generation
  · cases event with
    | pointerEvent event => by_cases here : event.pointer = pointer <;>
        simp [same, here, DelegateEvent.mark, Mark.toPhase]
    | _ =>
      simp only [same, if_true, DelegateEvent.mark]
      generalize DelegateEvent.closes _ = closes
      cases closes <;> rfl
  · cases event <;> simp [same]

/-- The streams of a binding are closed in a log that the automaton closes. -/
theorem closed_streams {generation : Nat} {pointer : PointerId} {log : List (Nat × DelegateEvent)}
    (followed : follow false (logMarks generation pointer log) = some false) :
    streamPhases generation pointer log ∈ stroke∗ := by
  rw [stream_phases_eq]
  exact (strokes_of_follow _ 0).1 (follow_forget _ _ followed)

/-- A stream the automaton follows can be completed. -/
theorem streams_completed {generation : Nat} {pointer : PointerId}
    {log : List (Nat × DelegateEvent)}
    (followed : (follow false (logMarks generation pointer log)).isSome) :
    ∃ rest, streamPhases generation pointer log ++ rest ∈ stroke∗ := by
  obtain ⟨isOpen, followed⟩ := Option.isSome_iff_exists.mp followed
  cases isOpen with
  | false => exact ⟨[], by simpa using closed_streams followed⟩
  | true =>
    refine ⟨[.cancel], ?_⟩
    rw [stream_phases_eq]
    refine (strokes_of_follow _ 0).1 ?_
    rw [List.map_append, follow_append, follow_forget _ _ followed]
    rfl

section Fifo
variable {host : Host}

private theorem same_queue {next : Host} (same : next.streams = host.streams) :
    next.uiQueue = host.uiQueue :=
  congrArg Streams.queue same

private theorem try_post_ui_queue (host : Host) (task : List UiStep) :
    host.uiQueue <+: (host.tryPostUi task).2.uiQueue := by
  simp only [tryPostUi]
  split
  · exact List.prefix_append _ _
  · exact List.prefix_rfl

private theorem post_ui_queue (host : Host) (task : List UiStep) :
    host.uiQueue <+: (host.postUi task).2.uiQueue := by
  have tried := try_post_ui_queue host task
  simp only [postUi]
  split <;> exact tried

theorem shutdown_queue (host : Host) (onPlatform : Bool) :
    host.uiQueue <+: (host.shutdown onPlatform).uiQueue := by
  unfold Host.shutdown
  split
  · split
    · rw [same_queue (schedule_platform_shutdown_streams host onPlatform)]
    · exact List.prefix_rfl
  · dsimp only
    generalize stopped : ({ host with state := _ } : Host) = next
    have queue : next.uiQueue = host.uiQueue := by rw [← stopped]
    have posted := post_ui_queue next
    rw [queue] at posted
    split
    · exact posted _
    · rw [same_queue (schedule_platform_shutdown_streams _ onPlatform)]
      exact posted _

theorem settle_frame_queue (host : Host) (control : FrameControl) (onPlatform : Bool) :
    host.uiQueue <+: (host.settleFrame control onPlatform).uiQueue := by
  have controlled := same_queue (post_frame_control_streams host control)
  have checked := same_queue (frame_generation_exhausted_streams (host.postFrameControl control).2)
  simp only [settleFrame]
  split
  · rw [← controlled]
    exact shutdown_queue _ onPlatform
  · split
    · rw [← controlled, ← checked]
      exact shutdown_queue _ onPlatform
    · rw [checked, controlled]

end Fifo

/-- The notice with which a call ends the streams of the current binding, if it
takes effect. -/
def Host.endsStreams (host : Host) : Host.Call → Option DelegateEvent
  | .setVisible false =>
    if host.state.running ∧ host.state.visible then some (.visibilityChanged false) else none
  | .setFocused false =>
    if host.state.running ∧ host.state.focused then some (.focusChanged false) else none
  | .shutdown _ => if host.state.running then some .windowShuttingDown else none
  | _ => none

/-- Such a call queues its notice, behind the cancellations, when its post succeeds. -/
theorem ends_streams_queued {host next : Host} {call : Host.Call} {notice : DelegateEvent}
    (ends : host.endsStreams call = some notice) (posted : host.postSucceeds = true)
    (performed : host.perform call = some next) :
    ∃ before requireRunning, host.uiQueue ++ (before ++
      [.invoke host.state.delegateGeneration requireRunning notice]) <+: next.uiQueue := by
  have taken : ∃ pointers, pointers = host.state.activePointers.insertionSort (· ≤ ·) := ⟨_, rfl⟩
  obtain ⟨pointers, taken⟩ := taken
  cases call with
  | setVisible visible =>
    cases visible <;> simp only [Host.endsStreams] at ends
    · split at ends <;> cases ends
      rename_i shown
      cases performed
      obtain done | ⟨same, _⟩ | ⟨_, _, done⟩ := set_visible_cases host.state false
      · simp [setVisibleLocked, shown.1, shown.2] at done
      · cases same
      refine ⟨cancelSteps host.state.delegateGeneration true pointers ++
        if host.state.focused then [.invoke host.state.delegateGeneration true (.focusChanged false)]
        else [], true, ?_⟩
      simp only [Host.setVisible, done]
      rw [try_post_ui_taken _ _ (by exact posted), List.append_assoc, taken]
      simp only [not_true_eq_false, if_false]
      refine List.IsPrefix.trans ?_ (settle_frame_queue _ _ true)
      exact List.prefix_rfl
    · cases ends
  | setFocused focused =>
    cases focused <;> simp only [Host.endsStreams] at ends
    · split at ends <;> cases ends
      rename_i held
      cases performed
      obtain ⟨outcome, rfl | rfl, done⟩ | ⟨same, _⟩ | ⟨_, _, _, done⟩ :=
        set_focused_cases host.state false
      · simp [setFocusedLocked, held.1, held.2] at done
      · simp [setFocusedLocked, held.1, held.2] at done
      · cases same
      refine ⟨cancelSteps host.state.delegateGeneration true pointers, true, ?_⟩
      simp only [Host.setFocused, done]
      rw [try_post_ui_taken _ _ (by exact posted), taken]
      exact List.prefix_rfl
    · cases ends
  | shutdown onPlatform =>
    simp only [Host.endsStreams] at ends
    split at ends <;> cases ends
    rename_i running
    cases performed
    refine ⟨.dropSemantics :: (host.state.clipboardRequests.map fun request =>
        .invoke host.state.delegateGeneration false (.clipboardCanceled request)) ++
      cancelSteps host.state.delegateGeneration false pointers, false,
      [.finishShutdown host.state.delegateGeneration], ?_⟩
    simp only [Host.shutdown, running]
    rw [post_ui_taken _ _ (by exact posted), taken]
    simp [shutdownTask, takeActivePointersLocked, stopLocked]
  | _ => cases ends

private theorem closes_mark {notice : DelegateEvent} (closes : notice.closes = true)
    (pointer : PointerId) : notice.mark pointer = some .closing := by
  cases notice <;> simp_all [DelegateEvent.closes, DelegateEvent.mark]

/-- In what the automaton follows, a notice comes only after closed streams. -/
theorem closed_before_notice {front back : List (Nat × DelegateEvent)} {generation : Nat}
    {notice : DelegateEvent} {pointer : PointerId} (closes : notice.closes = true)
    (followed : (follow false
      (logMarks generation pointer (front ++ (generation, notice) :: back))).isSome) :
    streamPhases generation pointer front ∈ stroke∗ := by
  have marks : logMarks generation pointer (front ++ (generation, notice) :: back) =
      logMarks generation pointer front ++ (.closing :: logMarks generation pointer back) := by
    simp [logMarks, closes_mark closes]
  rw [marks, follow_append] at followed
  obtain ⟨last, followed⟩ := Option.isSome_iff_exists.mp followed
  obtain ⟨isOpen, front, next⟩ := Option.bind_eq_some_iff.mp followed
  cases isOpen with
  | false => exact closed_streams front
  | true => cases next

private theorem stream_phases_notice {notice : DelegateEvent} (closes : notice.closes = true)
    (generation own : Nat) (pointer : PointerId) (log : List (Nat × DelegateEvent)) :
    streamPhases generation pointer (log ++ [(own, notice)]) =
      streamPhases generation pointer log := by
  rw [streamPhases, List.filterMap_append]
  cases notice <;> simp_all [DelegateEvent.closes, streamPhases]

/-- Every binding's events for every pointer are a prefix of whole streams, and it
hears that the window is hidden, out of focus or shutting down only when its
streams are closed. A call that takes effect queues that notice whenever its post
succeeds; if the binding is still current when the notice's turn comes, the notice
is delivered and the binding's streams are closed. -/
theorem pointer_streams_close_before_notices {host : Host}
    (reached : Transition.Reachable hostMachine host) :
    (∀ generation pointer, ∃ rest,
      streamPhases generation pointer host.delivered ++ rest ∈ stroke∗) ∧
    (∀ front generation notice back, host.delivered = front ++ (generation, notice) :: back →
      notice.closes → ∀ pointer, streamPhases generation pointer front ∈ stroke∗) ∧
    (∀ posts call notice next, host.endsStreams call = some notice → posts.headD true = true →
      hostMachine.step host (posts, call) = some next →
      ∃ before requireRunning, host.uiQueue ++ (before ++
        [.invoke host.state.delegateGeneration requireRunning notice]) <+: next.uiQueue) ∧
    (∀ posts requireRunning notice rest,
      host.uiQueue = .invoke host.state.delegateGeneration requireRunning notice :: rest →
      notice.closes → host.state.delegate.isSome →
      ∃ next, hostMachine.step host (posts, .runUi) = some next ∧
        next.delivered = host.delivered ++ [(host.state.delegateGeneration, notice)] ∧
        ∀ pointer, streamPhases host.state.delegateGeneration pointer next.delivered ∈ stroke∗) := by
  have formed := streams_well_formed reached
  refine ⟨?_, ?_, ?_, ?_⟩
  · exact fun generation pointer => streams_completed (formed.followed generation pointer)
  · intro front generation notice back logged closes pointer
    have followed := formed.followed generation pointer
    rw [show host.streams.delivered = _ from logged] at followed
    exact closed_before_notice closes followed
  · intro posts call notice next ends posted stepped
    exact @ends_streams_queued { host with posts } next call notice ends posted stepped
  · intro posts requireRunning notice rest queued closes bound
    have delivers : host.state.deliverQueuedEvents = true := formed.delivers (Or.inl bound)
    have followed := fun pointer => (formed.deliver bound queued).followed
      host.state.delegateGeneration pointer
    refine ⟨{ host with
      posts, uiQueue := rest
      delivered := host.delivered ++ [(host.state.delegateGeneration, notice)] }, ?_, rfl, ?_⟩
    · simp [hostMachine, Host.perform, queued, Host.runUiStep, Host.invokeDelegate, invokes,
        delivers, bound]
    · intro pointer
      rw [stream_phases_notice closes]
      exact closed_before_notice closes (followed pointer)

/-- A visible window just created. -/
def shownWindow : Host := { state := { id := 1, metrics := ⟨⟨10, 20⟩, 10, 20, 1, 1⟩, visible := true } }

theorem shown_window_reachable : Transition.Reachable hostMachine shownWindow := by
  refine .start ⟨1, ⟨10, 20⟩, 10, 20, 1, true, shownWindow.state, ?_, rfl⟩
  have valid : WindowMetrics.valid ⟨⟨10, 20⟩, 10, 20, 1, 1⟩ = true := by decide +kernel
  simp [createHostWindow, valid, shownWindow]

/-- A delegate is bound, a pointer goes down, and the UI executor catches up. -/
def pointerDown : List (List Bool × Host.Call) :=
  [([], .bindDelegate 7 false), ([], .sendPointer ⟨5, .down, some 1, some 1⟩), ([], .runUi),
    ([], .runUi), ([], .runUi)]

/-- The window is hidden while the pointer is down, and the UI executor catches up. -/
theorem hidden_stream_closes :
    ∃ host, hostMachine.run shownWindow (pointerDown ++
        [([], .setVisible false), ([], .runUi), ([], .runUi)]) = some host ∧
      host.delivered.getLast? = some (1, .visibilityChanged false) ∧
      streamPhases 1 5 host.delivered = [.down, .cancel] ∧
      ∃ rest, streamPhases 1 5 host.delivered ++ rest ∈ stroke∗ := by
  have observed : (hostMachine.run shownWindow (pointerDown ++
      [([], .setVisible false), ([], .runUi), ([], .runUi)])).map (fun host =>
        (host.delivered.getLast?, streamPhases 1 5 host.delivered)) =
      some (some (1, .visibilityChanged false), [.down, .cancel]) := by rfl
  obtain ⟨host, ran, seen⟩ := Option.map_eq_some_iff.mp observed
  obtain ⟨last, phases⟩ := Prod.mk.inj seen
  exact ⟨host, ran, last, phases, (pointer_streams_close_before_notices
    (Transition.Reachable.run shown_window_reachable ran)).1 1 5⟩

/-- The binding is current when the window is hidden and the task is posted, but a
new delegate is bound before it runs: the stream of the old one stays open. -/
theorem rebinding_drops_cancellation :
    ∃ host hidden done, hostMachine.run shownWindow pointerDown = some host ∧
      host.state.delegateGeneration = 1 ∧ host.state.delegate = some 7 ∧
      host.endsStreams (.setVisible false) = some (.visibilityChanged false) ∧
      hostMachine.step host ([true], .setVisible false) = some hidden ∧
      hidden.uiQueue = visibilityTask 1 false false [5] ∧
      hostMachine.run hidden [([], .bindDelegate 8 false), ([], .runUi), ([], .runUi),
        ([], .runUi)] = some done ∧
      done.uiQueue = [] ∧ streamPhases 1 5 done.delivered = [.down] :=
  ⟨_, _, _, rfl, rfl, rfl, rfl, rfl, rfl, rfl, rfl, rfl⟩

end Dui
