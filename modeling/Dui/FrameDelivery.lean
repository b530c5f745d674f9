import Dui.HostWindow

/-! Frames on their way to the delegate. A pulse opens one frame task and closes
the window for further pulses until the task has ended; whatever else happens in
between only makes the task's frame outdated, never a later frame early. -/
namespace Dui
open Host HostWindowState Transition

def DelegateEvent.frame : DelegateEvent → Option FrameRequest
  | .frameRequested request => some request
  | _ => none

/-- The parts of a frame task. -/
def UiStep.ofFrame : UiStep → Bool
  | .invoke _ _ event => event.frame.isSome
  | .frameRequested _ _ => true
  | .frameDelivered => true
  | _ => false

/-- One frame is followed by another with a later number and no earlier time. -/
def FrameRequest.Before (earlier later : FrameRequest) : Prop :=
  earlier.sequence < later.sequence ∧ earlier.timestamp ≤ later.timestamp

namespace Host

/-- The frames delivered so far, in order and whatever the binding. -/
def deliveredFrames (host : Host) : List FrameRequest :=
  host.delivered.filterMap fun entry => entry.2.frame

def frameSteps (host : Host) : List UiStep := host.uiQueue.filter UiStep.ofFrame

/-- The frame tasks that are queued or have not come to their end, which is always
a `frameDelivered`. -/
def frameTasks (host : Host) : Nat := host.uiQueue.count .frameDelivered

end Host

/-- Nothing moved on that a frame on its way depends on, except that newer metrics
may have outdated it. -/
structure HostWindowState.Steady (state next : HostWindowState) : Prop where
  delivering : next.frame.delivering = state.frame.delivering
  sequence : next.frame.nextSequence = state.frame.nextSequence
  timestamp : next.frame.lastTimestamp = state.frame.lastTimestamp
  exclusive : (state.frame.armed = true → state.frame.delivering = false) →
    next.frame.armed = true → next.frame.delivering = false
  metrics : next.metrics = state.metrics ∨ state.metrics.generation < next.metrics.generation

structure Host.Steady (host next : Host) : Prop where
  fields : host.state.Steady next.state
  steps : next.frameSteps = host.frameSteps
  frames : next.deliveredFrames = host.deliveredFrames

namespace HostWindowState.Steady
variable {state middle next : HostWindowState}

theorem refl (state : HostWindowState) : state.Steady state :=
  ⟨rfl, rfl, rfl, fun kept => kept, .inl rfl⟩

theorem trans (first : state.Steady middle) (second : middle.Steady next) :
    state.Steady next where
  delivering := second.delivering.trans first.delivering
  sequence := second.sequence.trans first.sequence
  timestamp := second.timestamp.trans first.timestamp
  exclusive exclusive := second.exclusive (first.exclusive exclusive)
  metrics := by
    obtain same | newer := second.metrics
    · rw [same]
      exact first.metrics
    · obtain same | older := first.metrics
      · rw [← same]
        exact .inr newer
      · exact .inr (older.trans newer)

/-- A change of other fields. -/
theorem of_eq (frame : next.frame = state.frame) (metrics : next.metrics = state.metrics) :
    state.Steady next := by
  refine ⟨?_, ?_, ?_, ?_, .inl metrics⟩
  all_goals
    rw [frame]
  exact fun kept => kept

theorem arm (state : HostWindowState) : state.Steady state.armFrameLocked.2 := by
  simp only [armFrameLocked, FrameState.arm]
  split
  · exact .refl _
  · rename_i idle
    simp only [not_or, Bool.not_eq_true] at idle
    split
    · exact ⟨rfl, rfl, rfl, fun kept => kept, .inl rfl⟩
    · exact ⟨rfl, rfl, rfl, fun _ _ => idle.2.2.1, .inl rfl⟩

theorem invalidate (state : HostWindowState) : state.Steady state.invalidateFrameLocked := by
  simp only [invalidateFrameLocked, FrameState.invalidate]
  by_cases busy : state.frame.armed = true ∨ state.frame.delivering = true
  · rw [if_pos busy]
    split
    · exact ⟨rfl, rfl, rfl, by simp, .inl rfl⟩
    · exact ⟨rfl, rfl, rfl, by simp, .inl rfl⟩
  · rw [if_neg busy]
    split
    · exact ⟨rfl, rfl, rfl, fun kept => kept, .inl rfl⟩
    · exact ⟨rfl, rfl, rfl, fun kept => kept, .inl rfl⟩

theorem then_arm (steady : state.Steady next) : state.Steady next.armFrameLocked.2 :=
  steady.trans (arm next)

theorem then_invalidate (steady : state.Steady next) : state.Steady next.invalidateFrameLocked :=
  steady.trans (invalidate next)

theorem stop (state : HostWindowState) : state.Steady state.stopLocked :=
  ⟨rfl, rfl, rfl, by simp [stopLocked, FrameState.stop], .inl rfl⟩

theorem request {generation : Option Nat}
    (requested : state.requestFrameLocked = some (generation, next)) : state.Steady next := by
  unfold requestFrameLocked at requested
  split at requested
  · cases requested
  · cases requested
    apply then_arm
    exact ⟨rfl, rfl, rfl, fun kept => kept, .inl rfl⟩

/-- New metrics come under a new generation. -/
theorem set_metrics (state : HostWindowState) (logicalSize : Size)
    (physicalWidth physicalHeight : Nat) (devicePixelRatio : ℚ) :
    state.Steady (state.setMetricsLocked logicalSize physicalWidth physicalHeight
      devicePixelRatio).2 := by
  unfold setMetricsLocked
  split
  · exact .refl _
  by_cases exhausted : state.metrics.generation = maxGeneration
  · have invalid : ({} : WindowMetrics).valid = false := by simp [WindowMetrics.valid]
    simp only [if_pos exhausted, invalid]
    exact .refl _
  · simp only [if_neg exhausted]
    split
    · exact .refl _
    · apply then_arm
      apply (invalidate state).trans
      exact ⟨rfl, rfl, rfl, fun kept => kept, .inr (Nat.lt_succ_self _)⟩

theorem set_visible {visible : Bool} {outcome : SetVisibleOutcome}
    (moved : state.setVisibleLocked visible = some (outcome, next)) : state.Steady next := by
  obtain done | ⟨rfl, _, _, done⟩ | ⟨rfl, _, done⟩ := set_visible_cases state visible
  · rw [done] at moved
    cases moved
  · rw [done] at moved
    cases moved
    apply then_arm
    exact of_eq rfl rfl
  · rw [done] at moved
    cases moved
    apply then_invalidate
    exact of_eq rfl rfl

theorem set_focused (state : HostWindowState) (focused : Bool) :
    state.Steady (state.setFocusedLocked focused).2 := by
  obtain ⟨outcome, _, done⟩ | ⟨_, _, done⟩ | ⟨_, _, _, done⟩ := set_focused_cases state focused
  · rw [done]
    exact .refl _
  · rw [done]
    exact of_eq rfl rfl
  · rw [done]
    exact of_eq rfl rfl

theorem set_surface_state (state : HostWindowState) (surface : HostSurfaceState) :
    state.Steady (state.setSurfaceStateLocked surface).2 := by
  unfold setSurfaceStateLocked
  split
  · exact .refl _
  dsimp only
  split
  · exact .refl _
  · have moved : ∀ metricsChanged : Prop, ∀ [Decidable metricsChanged], state.Steady { state with
        metrics := if metricsChanged then
          { state.metrics with generation := state.metrics.generation + 1 } else state.metrics
        surfaceState := surface } := by
      intro metricsChanged _
      refine ⟨rfl, rfl, rfl, fun kept => kept, ?_⟩
      dsimp only
      split
      · exact .inr (Nat.lt_succ_self _)
      · exact .inl rfl
    split
    · exact then_invalidate (moved _)
    · exact then_arm (moved _)

theorem frame_request_failed (state : HostWindowState) (generation : Nat) :
    state.Steady (state.frameRequestFailedLocked generation) := by
  unfold frameRequestFailedLocked
  split
  · exact ⟨rfl, rfl, rfl, by simp, .inl rfl⟩
  · exact .refl _

end HostWindowState.Steady

section Tasks

theorem cancel_steps_other (generation : Nat) (requireRunning : Bool) (pointers : List PointerId) :
    ∀ step ∈ cancelSteps generation requireRunning pointers, step.ofFrame = false := by
  simp [cancelSteps, UiStep.ofFrame, DelegateEvent.frame]

theorem shutdown_task_other (generation : Nat) (requests : List PendingClipboardRequest)
    (pointers : List PointerId) :
    ∀ step ∈ shutdownTask generation requests pointers, step.ofFrame = false := by
  simp [shutdownTask, cancelSteps, UiStep.ofFrame, DelegateEvent.frame, or_imp, forall_and]

theorem created_task_other (generation : Nat) (metrics : WindowMetrics) (visible : Bool) :
    ∀ step ∈ createdTask generation metrics visible, step.ofFrame = false := by
  cases visible <;> simp [createdTask, UiStep.ofFrame, DelegateEvent.frame]

theorem visibility_task_other (generation : Nat) (visible focusLost : Bool)
    (pointers : List PointerId) :
    ∀ step ∈ visibilityTask generation visible focusLost pointers, step.ofFrame = false := by
  have canceled := cancel_steps_other generation true pointers
  intro step member
  obtain canceling | member := List.mem_append.mp member
  · exact canceled step canceling
  · obtain lost | shown := List.mem_append.mp member
    · cases focusLost with
      | true =>
        obtain rfl := List.mem_singleton.mp lost
        rfl
      | false => simp at lost
    · obtain rfl := List.mem_singleton.mp shown
      rfl

theorem focus_task_other (generation : Nat) (focused : Bool) (pointers : List PointerId) :
    ∀ step ∈ focusTask generation focused pointers, step.ofFrame = false := by
  have canceled := cancel_steps_other generation true pointers
  intro step member
  obtain canceling | member := List.mem_append.mp member
  · exact canceled step canceling
  · obtain rfl := List.mem_singleton.mp member
    rfl

theorem surface_task_other (generation : Nat) (metricsChanged : Bool) (metrics : WindowMetrics)
    (event : SurfaceEvent) :
    ∀ step ∈ surfaceTask generation metricsChanged metrics event, step.ofFrame = false := by
  cases metricsChanged <;> simp [surfaceTask, UiStep.ofFrame, DelegateEvent.frame]

end Tasks

namespace Host.Steady
variable {host middle next : Host}

theorem refl (host : Host) : host.Steady host := ⟨.refl _, rfl, rfl⟩

theorem trans (first : host.Steady middle) (second : middle.Steady next) : host.Steady next :=
  ⟨first.fields.trans second.fields, second.steps.trans first.steps,
    second.frames.trans first.frames⟩

/-- Only the state changes, in a section. -/
theorem of_section {state : HostWindowState} (steady : host.state.Steady state) :
    host.Steady { host with state } :=
  ⟨steady, rfl, rfl⟩

theorem report (host : Host) (source : HostErrorSource) (failure : Failure) :
    host.Steady (host.reportError source failure) := ⟨.refl _, rfl, rfl⟩

theorem try_post {task : List UiStep} (other : ∀ step ∈ task, step.ofFrame = false) :
    host.Steady (host.tryPostUi task).2 := by
  refine ⟨.refl _, ?_, rfl⟩
  have none : task.filter UiStep.ofFrame = [] := by
    simpa [List.filter_eq_nil_iff] using other
  simp only [tryPostUi, frameSteps]
  split
  · rw [List.filter_append, none, List.append_nil]
  · rfl

theorem post {task : List UiStep} (other : ∀ step ∈ task, step.ofFrame = false) :
    host.Steady (host.postUi task).2 := by
  have posted : host.Steady (host.tryPostUi task).2 := try_post other
  simp only [postUi]
  split
  · exact posted
  · exact posted.trans (report _ _ _)

theorem post_platform (host : Host) (task : PlatformTask) :
    host.Steady (host.postPlatform task).2 := by
  unfold postPlatform
  split
  · exact ⟨.refl _, rfl, rfl⟩
  · exact ⟨.refl _, rfl, rfl⟩

theorem post_frame_control (host : Host) (control : FrameControl) :
    host.Steady (host.postFrameControl control).2 := by
  unfold postFrameControl
  split
  · exact .refl _
  · exact post_platform host _

theorem frame_generation_exhausted (host : Host) :
    host.Steady host.frameGenerationExhausted.2 := by
  simp only [frameGenerationExhausted]
  split
  · exact ⟨⟨rfl, rfl, rfl, fun kept => kept, .inl rfl⟩, rfl, rfl⟩
  · exact ⟨⟨rfl, rfl, rfl, fun kept => kept, .inl rfl⟩, rfl, rfl⟩

theorem complete_platform_shutdown (host : Host) : host.Steady host.completePlatformShutdown := by
  unfold completePlatformShutdown
  split
  · exact .refl _
  · exact ⟨.of_eq rfl rfl, rfl, rfl⟩

theorem schedule_platform_shutdown (host : Host) (onPlatform : Bool) :
    host.Steady (host.schedulePlatformShutdown onPlatform) := by
  unfold schedulePlatformShutdown
  split
  · exact .refl _
  · have pending : host.Steady { host with
        state := { host.state with platformShutdownPending := true } } :=
      ⟨.of_eq rfl rfl, rfl, rfl⟩
    dsimp only
    split
    · exact pending.trans (complete_platform_shutdown _)
    · have posted := pending.trans (post_platform _ .completeShutdown)
      split
      · exact posted
      · exact posted.trans ⟨.of_eq rfl rfl, rfl, rfl⟩

theorem release (host : Host) (generation : Nat) :
    host.Steady { host with state := releaseDelegateLocked host.state generation } := by
  refine ⟨?_, rfl, rfl⟩
  simp only [releaseDelegateLocked]
  split
  · exact .of_eq rfl rfl
  · exact .of_eq rfl rfl

theorem shutdown (host : Host) (onPlatform : Bool) : host.Steady (host.shutdown onPlatform) := by
  unfold Host.shutdown
  split
  · split
    · exact schedule_platform_shutdown host onPlatform
    · exact .refl _
  · have stopped : host.state.Steady host.state.stopLocked.takeActivePointersLocked.2 :=
      (HostWindowState.Steady.stop _).trans (.of_eq rfl rfl)
    have posted := (of_section stopped).trans (post (shutdown_task_other
      host.state.delegateGeneration host.state.clipboardRequests
      host.state.stopLocked.takeActivePointersLocked.1))
    dsimp only
    split
    · exact posted
    · exact (posted.trans (release _ _)).trans (schedule_platform_shutdown _ _)

theorem settle (host : Host) (control : FrameControl) (onPlatform : Bool) :
    host.Steady (host.settleFrame control onPlatform) := by
  have posted := post_frame_control host control
  simp only [settleFrame]
  split
  · exact posted.trans (shutdown _ _)
  · have checked := posted.trans (frame_generation_exhausted _)
    split
    · exact checked.trans (shutdown _ _)
    · exact checked

/-- A section followed by a delegate task, and by a shutdown where it cannot be posted. -/
theorem post_or_shutdown {state : HostWindowState} {task : List UiStep}
    (steady : host.state.Steady state) (other : ∀ step ∈ task, step.ofFrame = false)
    (onPlatform : Bool) :
    host.Steady (({ host with state } : Host).postUi task).2 ∧
      host.Steady ((({ host with state } : Host).postUi task).2.shutdown onPlatform) := by
  have posted := (of_section steady).trans (post other)
  exact ⟨posted, posted.trans (shutdown _ _)⟩

theorem bind_delegate (host : Host) (delegate : Nat) (onPlatform : Bool) :
    host.Steady (host.bindDelegate delegate onPlatform).2 := by
  unfold bindDelegate
  split
  · exact .refl _
  split
  · exact .refl _
  · have bound : host.state.Steady { host.state with
        delegateGeneration := host.state.delegateGeneration + 1
        delegate := some delegate
        activePointers := [] } := .of_eq rfl rfl
    obtain ⟨posted, stopped⟩ := post_or_shutdown bound (created_task_other _ _ _) onPlatform
    dsimp only
    split
    · exact posted
    · exact stopped

theorem reset_binding (host : Host) (generation : Nat) :
    host.Steady (host.resetBinding generation) := by
  unfold resetBinding
  split
  · exact of_section (.of_eq rfl rfl)
  · exact .refl _

theorem request_frame (host : Host) (onPlatform : Bool) :
    host.Steady (host.requestFrame onPlatform).2 := by
  unfold requestFrame
  split
  · exact .refl _
  · rename_i generation state requested
    have checked := (of_section (HostWindowState.Steady.request requested)).trans
      (frame_generation_exhausted _)
    dsimp only
    split
    · exact checked.trans (shutdown _ _)
    · have posted := checked.trans (post_frame_control _ ⟨false, generation⟩)
      split
      · exact posted
      · exact posted.trans (shutdown _ _)

theorem set_metrics (host : Host) (logicalSize : Size) (physicalWidth physicalHeight : Nat)
    (devicePixelRatio : ℚ) :
    host.Steady (host.setMetrics logicalSize physicalWidth physicalHeight devicePixelRatio) := by
  have moved := HostWindowState.Steady.set_metrics host.state logicalSize physicalWidth
    physicalHeight devicePixelRatio
  unfold setMetrics
  split
  · exact .refl _
  · exact report _ _ _
  · rename_i control state done
    rw [done] at moved
    obtain ⟨posted, stopped⟩ := post_or_shutdown moved (by simp [UiStep.ofFrame,
      DelegateEvent.frame] : ∀ step ∈ [UiStep.invoke state.delegateGeneration true
        (.metricsChanged state.metrics)], step.ofFrame = false) true
    dsimp only
    split
    · exact stopped
    · exact posted.trans (settle _ _ _)

/-- What remains of an input event whose delegate task could not be posted. -/
theorem undo {state undone : HostWindowState} {task : List UiStep}
    (steady : host.state.Steady state) (other : ∀ step ∈ task, step.ofFrame = false)
    (undoing : (({ host with state } : Host).tryPostUi task).2.state.Steady undone) :
    host.Steady (({ ({ host with state } : Host).tryPostUi task |>.2 with
      state := undone } : Host).reportPost.shutdown true) := by
  have posted := (of_section steady).trans (try_post other)
  have restored := posted.trans (of_section undoing)
  exact (restored.trans (report _ _ _)).trans (shutdown _ _)

theorem set_visible (host : Host) (visible : Bool) : host.Steady (host.setVisible visible) := by
  unfold setVisible
  split
  · exact .refl _
  · rename_i outcome state moved
    have steady := HostWindowState.Steady.set_visible moved
    have other := visibility_task_other state.delegateGeneration visible outcome.focusLost
      outcome.pointers
    dsimp only
    split
    · apply undo steady other
      unfold restorePointersLocked
      split
      · exact .of_eq rfl rfl
      · exact .refl _
    · exact ((of_section steady).trans (try_post other)).trans (settle _ _ _)

theorem set_focused (host : Host) (focused : Bool) : host.Steady (host.setFocused focused) := by
  have steady := HostWindowState.Steady.set_focused host.state focused
  unfold setFocused
  split
  · exact .refl _
  · exact report _ _ _
  · rename_i pointers state moved
    rw [moved] at steady
    have other := focus_task_other state.delegateGeneration focused pointers
    dsimp only
    split
    · apply undo steady other
      unfold restorePointersLocked
      split
      · exact .of_eq rfl rfl
      · exact .refl _
    · exact (of_section steady).trans (try_post other)

theorem send_pointer (host : Host) (event : PointerEvent) :
    host.Steady (host.sendPointer event) := by
  have steady : host.state.Steady (sendPointerLocked host.state event).2 := by
    unfold sendPointerLocked
    split
    · exact .refl _
    · exact .of_eq rfl rfl
  unfold sendPointer
  split
  · exact .refl _
  · exact report _ _ _
  · rename_i state sent
    rw [sent] at steady
    have other : ∀ step ∈ [UiStep.invoke state.delegateGeneration true (.pointerEvent event)],
        step.ofFrame = false := by
      simp [UiStep.ofFrame, DelegateEvent.frame]
    dsimp only
    split
    · apply undo steady other
      unfold undoPointerLocked
      split
      · exact .of_eq rfl rfl
      · exact .refl _
    · exact (of_section steady).trans (try_post other)

theorem set_surface_state (host : Host) (surface : HostSurfaceState) :
    host.Steady (host.setSurfaceState surface) := by
  have steady := HostWindowState.Steady.set_surface_state host.state surface
  unfold setSurfaceState
  split
  · exact .refl _
  split
  · exact report _ _ _
  split
  · exact .refl _
  · exact (report _ _ _).trans (shutdown _ _)
  · rename_i metricsChanged control state moved
    rw [moved] at steady
    obtain ⟨posted, stopped⟩ := post_or_shutdown steady (surface_task_other
      state.delegateGeneration metricsChanged state.metrics
      ⟨state.id, surface, state.metrics.generation⟩) true
    dsimp only
    split
    · exact stopped
    · exact posted.trans (settle _ _ _)

/-- A delegate call that is not a frame. -/
theorem invoke (host : Host) (generation : Nat) (requireRunning : Bool) {event : DelegateEvent}
    (other : event.frame = none) :
    host.Steady (host.invokeDelegate generation requireRunning event) := by
  unfold invokeDelegate
  split
  · refine ⟨.refl _, rfl, ?_⟩
    simp [deliveredFrames, other]
  · exact .refl _

theorem run_platform (host : Host) (fails : Bool) (task : PlatformTask) :
    host.Steady (host.runPlatformTask fails task) := by
  cases task with
  | frameControl control =>
    simp only [runPlatformTask]
    split
    · split
      · exact (of_section (HostWindowState.Steady.frame_request_failed _ _)).trans (report _ _ _)
      · exact .refl _
    · exact .refl _
  | completeShutdown => exact complete_platform_shutdown host

end Host.Steady

/-- The frame on its way is later than all that were delivered, and as new as the
metrics unless these moved on. -/
structure Host.Fresh (host : Host) (request : FrameRequest) : Prop where
  sequence : request.sequence < host.state.frame.nextSequence
  timestamp : host.state.frame.lastTimestamp = some request.timestamp
  later : ∀ frame ∈ host.deliveredFrames, frame.Before request
  metrics : host.state.metrics = request.metrics ∨
    request.metrics.generation < host.state.metrics.generation

/-- What can be on its way: nothing, a frame task, or the end of one. -/
inductive Host.OnTheirWay (host : Host) : List UiStep → Prop where
  | nothing : OnTheirWay host []
  | ending (delivering : host.state.frame.delivering = true) : OnTheirWay host [.frameDelivered]
  | frame {generation : Nat} {request : FrameRequest}
      (delivering : host.state.frame.delivering = true) (fresh : host.Fresh request) :
      OnTheirWay host [.frameRequested generation request, .frameDelivered]

theorem Host.OnTheirWay.of_clear {host : Host} (clear : host.frameSteps = []) :
    host.OnTheirWay host.frameSteps := by
  rw [clear]
  exact .nothing

structure Host.Framed (host : Host) : Prop where
  exclusive : host.state.frame.armed = true → host.state.frame.delivering = false
  ordered : host.deliveredFrames.Pairwise FrameRequest.Before
  past : ∀ frame ∈ host.deliveredFrames, frame.sequence < host.state.frame.nextSequence ∧
    ∃ last, host.state.frame.lastTimestamp = some last ∧ frame.timestamp ≤ last
  steps : host.OnTheirWay host.frameSteps

/-- What a step delivers: nothing, or one frame that shows the window as it is. -/
def Host.Delivers (host next : Host) : Prop :=
  next.deliveredFrames = host.deliveredFrames ∨
  ∃ request, next.deliveredFrames = host.deliveredFrames ++ [request] ∧
    request.metrics = host.state.metrics ∧ host.state.visible = true ∧
    host.state.surfaceState = .available ∧ host.state.running = true

namespace Host.Framed
variable {host next : Host}

theorem steady (framed : host.Framed) (steady : host.Steady next) : next.Framed := by
  obtain ⟨fields, steps, frames⟩ := steady
  refine ⟨fields.exclusive framed.exclusive, ?_, ?_, ?_⟩
  · rw [frames]
    exact framed.ordered
  · rw [frames, fields.sequence, fields.timestamp]
    exact framed.past
  · rw [steps]
    have way := framed.steps
    generalize host.frameSteps = queued at way ⊢
    cases way with
    | nothing => exact .nothing
    | ending delivering => exact .ending (fields.delivering.trans delivering)
    | frame delivering fresh =>
      refine .frame (fields.delivering.trans delivering) ⟨?_, ?_, ?_, ?_⟩
      · rw [fields.sequence]
        exact fresh.sequence
      · rw [fields.timestamp]
        exact fresh.timestamp
      · rw [frames]
        exact fresh.later
      · obtain same | newer := fields.metrics
        · rw [same]
          exact fresh.metrics
        · obtain same | older := fresh.metrics
          · exact .inr (same ▸ newer)
          · exact .inr (older.trans newer)

/-- While nothing is being delivered, no frame is on its way. -/
theorem clear (framed : host.Framed) (idle : host.state.frame.delivering = false) :
    host.frameSteps = [] := by
  have steps := framed.steps
  generalize host.frameSteps = queued at steps
  cases steps with
  | nothing => rfl
  | ending delivering => simp [idle] at delivering
  | frame delivering _ => simp [idle] at delivering

/-- An accepted pulse is no earlier than the one before. -/
private theorem pulse_timestamp {state moved : HostWindowState} {timestamp last : Int}
    {generation : Nat} {request : FrameRequest}
    (accepted : state.framePulseLocked timestamp generation = (.accepted request, moved))
    (before : state.frame.lastTimestamp = some last) : last ≤ timestamp := by
  unfold framePulseLocked at accepted
  split at accepted
  · simp at accepted
  split at accepted
  · simp at accepted
  · rename_i monotonic
    simp only [before, Option.any_some, decide_eq_true_eq, not_or, not_lt] at monotonic
    exact monotonic.2

theorem frame_pulse (framed : host.Framed) (timestamp : Int) (generation : Nat) :
    (host.framePulse timestamp generation).Framed ∧
      (host.framePulse timestamp generation).deliveredFrames = host.deliveredFrames := by
  unfold framePulse
  obtain ⟨outcome, rfl | rfl, done⟩ | ⟨_, _, armed, _, done⟩ | ⟨_, _, armed, _, done⟩ :=
    frame_pulse_cases host.state timestamp generation
  · rw [done]
    exact ⟨framed, rfl⟩
  · rw [done]
    exact ⟨framed.steady (.report _ _ _), rfl⟩
  · rw [done]
    have clear := framed.clear (framed.exclusive armed)
    dsimp only
    have stopped : Framed { host with state := { host.state with
        frame := { host.state.frame with armed := false, delivering := false } } } :=
      ⟨by simp, framed.ordered, framed.past, .of_clear clear⟩
    have ended := (Host.Steady.report { host with state := { host.state with
        frame := { host.state.frame with armed := false, delivering := false } } }
      .invalidPlatformEvent (.overflowError "Host frame sequence exhausted")).trans
        (.shutdown _ true)
    exact ⟨stopped.steady ended, ended.frames⟩
  · have later : ∀ last, host.state.frame.lastTimestamp = some last → last ≤ timestamp :=
      fun last => pulse_timestamp done
    have earlier : ∀ frame ∈ host.deliveredFrames,
        frame.sequence < host.state.frame.nextSequence ∧ frame.timestamp ≤ timestamp := by
      intro frame member
      obtain ⟨sequence, last, before, earlier⟩ := framed.past frame member
      exact ⟨sequence, earlier.trans (later last before)⟩
    have past : ∀ frame ∈ host.deliveredFrames,
        frame.sequence < host.state.frame.nextSequence + 1 ∧
          ∃ last, some timestamp = some last ∧ frame.timestamp ≤ last :=
      fun frame member => ⟨(earlier frame member).1.trans (Nat.lt_succ_self _), timestamp, rfl,
        (earlier frame member).2⟩
    have clear := framed.clear (framed.exclusive armed)
    rw [done]
    dsimp only
    generalize opened : ({ host.state with frame := { host.state.frame with
      armed := false, delivering := true, demand := false, lastTimestamp := some timestamp
      nextSequence := host.state.frame.nextSequence + 1 } } : HostWindowState) = state
    cases posted : host.postSucceeds with
    | true =>
      simp only [post_ui_taken { host with state } _ posted, if_true]
      subst opened
      refine ⟨⟨by simp, framed.ordered, past, ?_⟩, rfl⟩
      have queued : (host.uiQueue ++ [UiStep.frameRequested host.state.delegateGeneration
          ⟨host.state.id, host.state.metrics, timestamp, host.state.frame.nextSequence⟩,
            UiStep.frameDelivered]).filter UiStep.ofFrame =
          [.frameRequested host.state.delegateGeneration ⟨host.state.id, host.state.metrics,
            timestamp, host.state.frame.nextSequence⟩, .frameDelivered] := by
        have none : host.uiQueue.filter UiStep.ofFrame = [] := clear
        rw [List.filter_append, none, List.nil_append]
        rfl
      rw [frameSteps, queued]
      exact .frame rfl ⟨Nat.lt_succ_self _, rfl, earlier, .inl rfl⟩
    | false =>
      simp only [post_ui_refused { host with state } _ posted, Bool.false_eq_true, if_false]
      subst opened
      have ended := Host.Steady.shutdown (reportPost { host with
        posts := host.posts.tail
        state := { host.state with frame := { host.state.frame with
          armed := false, delivering := true, demand := false, lastTimestamp := some timestamp
          nextSequence := host.state.frame.nextSequence + 1 } } }) true
      refine ⟨Framed.steady ?_ ended, ended.frames⟩
      exact ⟨by simp [reportPost, reportError], framed.ordered, past, .of_clear clear⟩

/-- Taking a step off the queue. -/
private theorem popped_steps {step : UiStep} {rest : List UiStep}
    (queued : host.uiQueue = step :: rest) :
    host.frameSteps = if step.ofFrame then step :: frameSteps { host with uiQueue := rest }
      else frameSteps { host with uiQueue := rest } := by
  rw [frameSteps, queued, List.filter_cons]
  rfl

theorem run_ui {step : UiStep} {rest : List UiStep} (framed : host.Framed)
    (queued : host.uiQueue = step :: rest) :
    (runUiStep { host with uiQueue := rest } step).Framed ∧
      host.Delivers (runUiStep { host with uiQueue := rest } step) := by
  have steps := popped_steps queued
  have way := framed.steps
  cases framing : step.ofFrame with
  | false =>
    rw [framing] at steps
    have popped : host.Steady { host with uiQueue := rest } := ⟨.refl _, steps.symm, rfl⟩
    have stayed : host.Steady (runUiStep { host with uiQueue := rest } step) := by
      cases step with
      | invoke generation requireRunning event =>
        exact popped.trans (.invoke _ _ _ (by simpa [UiStep.ofFrame] using framing))
      | frameRequested generation request => simp [UiStep.ofFrame] at framing
      | frameDelivered => simp [UiStep.ofFrame] at framing
      | dropSemantics => exact popped.trans (.of_section (.of_eq rfl rfl))
      | finishShutdown generation =>
        exact (popped.trans (.release _ _)).trans (.schedule_platform_shutdown _ _)
    exact ⟨framed.steady stayed, .inl stayed.frames⟩
  | true =>
    rw [framing, if_pos rfl] at steps
    rw [steps] at way
    generalize left : frameSteps { host with uiQueue := rest } = queue at way
    cases way with
    | ending delivering =>
      have ended : Framed { host with
          uiQueue := rest
          state := host.state.frameDeliveredLocked.2 } := by
        have finished : ({ host.state with frame := { host.state.frame with
            delivering := false } } : HostWindowState).Steady host.state.frameDeliveredLocked.2 :=
          .arm _
        refine ⟨finished.exclusive fun _ => rfl, framed.ordered, ?_, .of_clear left⟩
        rw [finished.sequence, finished.timestamp]
        exact framed.past
      have settled := Host.Steady.settle { host with
        uiQueue := rest
        state := host.state.frameDeliveredLocked.2 } ⟨false, host.state.frameDeliveredLocked.1⟩
        false
      exact ⟨ended.steady settled, .inl settled.frames⟩
    | @frame generation request delivering fresh =>
      have outdated : Framed { host with uiQueue := rest } := by
        refine ⟨framed.exclusive, framed.ordered, framed.past, ?_⟩
        rw [left]
        exact .ending delivering
      simp only [runUiStep, invokeDelegate]
      split
      case isFalse => exact ⟨outdated, .inl rfl⟩
      case isTrue current =>
        split
        case isFalse => exact ⟨outdated, .inl rfl⟩
        case isTrue =>
          simp only [frameCurrentLocked, Bool.and_eq_true, decide_eq_true_eq] at current
          obtain ⟨⟨⟨⟨running, _⟩, visible⟩, available⟩, same⟩ := current
          have told : deliveredFrames { host with
              uiQueue := rest
              delivered := host.delivered ++ [(generation, .frameRequested request)] } =
              host.deliveredFrames ++ [request] := by
            simp [deliveredFrames, DelegateEvent.frame]
          refine ⟨⟨framed.exclusive, ?_, ?_, ?_⟩, .inr ⟨request, told, ?_, visible, available,
            running⟩⟩
          · rw [told, List.pairwise_append]
            exact ⟨framed.ordered, List.pairwise_singleton _ _, by simpa using fresh.later⟩
          · rw [told]
            intro frame member
            obtain before | latest := List.mem_append.mp member
            · exact framed.past frame before
            · obtain rfl := List.mem_singleton.mp latest
              exact ⟨fresh.sequence, frame.timestamp, fresh.timestamp, le_rfl⟩
          · have queue : frameSteps { host with
                uiQueue := rest
                delivered := host.delivered ++ [(generation, .frameRequested request)] } =
                [.frameDelivered] := left
            rw [queue]
            exact .ending delivering
          · obtain same | newer := fresh.metrics
            · exact same.symm
            · exact absurd same newer.ne'

theorem step {action : List Bool × Host.Call} (framed : host.Framed)
    (stepped : hostMachine.step host action = some next) : next.Framed ∧ host.Delivers next := by
  have posts : Framed { host with posts := action.1 } := framed.steady ⟨.refl _, rfl, rfl⟩
  have quiet : ∀ {next : Host}, Host.Steady { host with posts := action.1 } next →
      next.Framed ∧ host.Delivers next :=
    fun steady => ⟨posts.steady steady, .inl steady.frames⟩
  obtain ⟨outcomes, call⟩ := action
  simp only [hostMachine, perform] at stepped
  cases call with
  | bindDelegate delegate onPlatform =>
    cases stepped
    exact quiet (.bind_delegate _ _ _)
  | resetBinding generation =>
    cases stepped
    exact quiet (.reset_binding _ _)
  | expireDelegate =>
    cases stepped
    exact quiet (.of_section (.of_eq rfl rfl))
  | requestFrame onPlatform =>
    cases stepped
    exact quiet (.request_frame _ _)
  | shutdown onPlatform =>
    cases stepped
    exact quiet (.shutdown _ _)
  | setMetrics logicalSize physicalWidth physicalHeight devicePixelRatio =>
    cases stepped
    exact quiet (.set_metrics _ _ _ _ _)
  | setVisible visible =>
    cases stepped
    exact quiet (.set_visible _ _)
  | setFocused focused =>
    cases stepped
    exact quiet (.set_focused _ _)
  | framePulse timestamp generation =>
    cases stepped
    obtain ⟨framed, frames⟩ := posts.frame_pulse timestamp generation
    exact ⟨framed, .inl frames⟩
  | sendPointer event =>
    cases stepped
    exact quiet (.send_pointer _ _)
  | setSurfaceState surface =>
    cases stepped
    exact quiet (.set_surface_state _ _)
  | runUi =>
    cases queued : host.uiQueue with
    | nil => simp [queued] at stepped
    | cons step rest =>
      simp only [queued, Option.some.injEq] at stepped
      subst stepped
      exact posts.run_ui queued
  | runPlatform fails =>
    cases queued : host.platformQueue with
    | nil => simp [queued] at stepped
    | cons task rest =>
      simp only [queued, Option.some.injEq] at stepped
      subst stepped
      have popped : Host.Steady { host with posts := outcomes } { host with
        posts := outcomes, platformQueue := rest } := ⟨.refl _, rfl, rfl⟩
      exact quiet (popped.trans (.run_platform _ _ _))

/-- A new window has asked for no frame and shown none. -/
theorem created_frame {id : WindowId} {logicalSize : Size} {physicalWidth physicalHeight : Nat}
    {devicePixelRatio : ℚ} {visible : Bool} {state : HostWindowState}
    (created : createHostWindow id logicalSize physicalWidth physicalHeight devicePixelRatio
      visible = .ok state) : state.frame = {} := by
  unfold createHostWindow at created
  split at created
  · cases created
  dsimp only at created
  split at created
  · cases created
  · cases created
    rfl

theorem start (initial : hostMachine.init host) : host.Framed := by
  obtain ⟨id, logicalSize, physicalWidth, physicalHeight, devicePixelRatio, visible, state,
    created, rfl⟩ := initial
  have fresh : state.frame = {} := created_frame created
  refine ⟨?_, List.Pairwise.nil, by simp [deliveredFrames], .of_clear rfl⟩
  simp [fresh]

end Host.Framed

/-- Frame delivery over every run: frames come in order, one task at a time, never
while one could still be asked for, and each shows the window as it is. -/
theorem frame_delivery {host : Host} (reached : Reachable hostMachine host) :
    host.deliveredFrames.Pairwise (fun earlier later =>
      earlier.sequence < later.sequence ∧ earlier.timestamp ≤ later.timestamp) ∧
    host.frameTasks ≤ 1 ∧
    ¬ (host.state.frame.armed = true ∧ host.state.frame.delivering = true) ∧
    ∀ action next, hostMachine.step host action = some next →
      next.deliveredFrames = host.deliveredFrames ∨
      ∃ request, next.deliveredFrames = host.deliveredFrames ++ [request] ∧
        request.metrics = host.state.metrics ∧ host.state.visible = true ∧
        host.state.surfaceState = .available ∧ host.state.running = true := by
  have framed : host.Framed := by
    apply Reaches.invariant Host.Framed _ _ reached
    · exact fun _ initial => Host.Framed.start initial
    · exact fun _ _ _ framed _ stepped => (framed.step stepped).1
  refine ⟨framed.ordered, ?_, ?_, fun _ _ stepped => (framed.step stepped).2⟩
  · have same : host.frameTasks = host.frameSteps.count .frameDelivered :=
      (List.count_filter rfl).symm
    have way := framed.steps
    rw [same]
    generalize host.frameSteps = queued at way ⊢
    cases way with
    | nothing => simp
    | ending _ => simp
    | frame _ _ => simp
  · rintro ⟨armed, delivering⟩
    simp [framed.exclusive armed] at delivering

/-- A window resized while a frame is on its way: the outdated frame is dropped and
the next one shows the new size. -/
def resizedCalls : List (List Bool × Host.Call) :=
  [([], .bindDelegate 7 false), ([], .runUi), ([], .runUi), ([], .requestFrame false),
    ([], .framePulse 5 1), ([], .setMetrics ⟨20, 20⟩ 20 20 1), ([], .runUi), ([], .runUi),
    ([], .runUi), ([], .framePulse 9 3)]

def resizedStart : Host :=
  { state := { id := 1, metrics := ⟨⟨10, 20⟩, 10, 20, 1, 1⟩, visible := true } }

theorem resized_start_initial : hostMachine.init resizedStart := by
  refine ⟨1, ⟨10, 20⟩, 10, 20, 1, true, resizedStart.state, ?_, rfl⟩
  have valid : WindowMetrics.valid ⟨⟨10, 20⟩, 10, 20, 1, 1⟩ = true := by decide +kernel
  simp [createHostWindow, valid, resizedStart]

/-- The only frame delivered shows the size the window has. -/
theorem resized_frame_delivered :
    ∃ host next request, hostMachine.run resizedStart resizedCalls = some host ∧
      hostMachine.step host ([], .runUi) = some next ∧ next.deliveredFrames = [request] ∧
      request.metrics.logicalSize = ⟨20, 20⟩ := by
  have observed : ((hostMachine.run resizedStart resizedCalls).bind fun host =>
      (hostMachine.step host ([], .runUi)).map fun next =>
        (host.deliveredFrames, host.state.metrics.logicalSize, next.deliveredFrames.length)) =
      some ([], ⟨20, 20⟩, 1) := by decide +kernel
  obtain ⟨host, ran, observed⟩ := Option.bind_eq_some_iff.mp observed
  obtain ⟨next, stepped, seen⟩ := Option.map_eq_some_iff.mp observed
  obtain ⟨none, size, one⟩ : host.deliveredFrames = [] ∧ host.state.metrics.logicalSize = ⟨20, 20⟩ ∧
      next.deliveredFrames.length = 1 := by simpa using seen
  obtain ⟨_, _, _, delivers⟩ :=
    frame_delivery (Reachable.run (.start resized_start_initial) ran)
  obtain same | ⟨request, told, metrics, _⟩ := delivers ([], .runUi) next stepped
  · simp [same, none] at one
  · exact ⟨host, next, request, ran, stepped, by simpa [none] using told, metrics ▸ size⟩

end Dui
