import Mathlib.Tactic.NormNum
import Dui.FrameDelivery
import Dui.SurfaceProtocol
import Dui.WaylandWindow

/-!
# The frame clock of a Wayland window

The compositor stamps a frame callback with milliseconds modulo `2^32`, and the
window adds the wraps it has seen. `frame_clock_exact` says that the timestamps are
the compositor's times up to one offset, and that the host finds none of them going
backwards. It holds across any number of wraps as long as the nanoseconds fit their
type; `nanoseconds_overflow` is a run in which they do not.
-/

namespace Dui

open Transition WaylandSurfaceState

/-- The compositor's times do not go back, and callbacks follow each other in less
than half the range of their stamps. -/
def FrameClockRun.Spaced (run : FrameClockRun) (action : List Bool × FrameClockCall) : Prop :=
  ∀ time resources, action.2 = .done time resources →
    ∀ last ∈ run.callbacks.getLast?, last ≤ time ∧ time - last < 2 ^ 31

/-- Moreover the time since the wrap before the first callback fits the nanoseconds
of the standard library. -/
def FrameClockRun.Timely (run : FrameClockRun) (action : List Bool × FrameClockCall) : Prop :=
  run.Spaced action ∧ ∀ time resources, action.2 = .done time resources →
    let first := run.callbacks.headD time
    (time - first / 2 ^ 32 * 2 ^ 32) * 1000000 < 2 ^ 63

/-- Timestamps do not go back, and lie apart as the times do. -/
def FramePulse.Apart (earlier later : FramePulse) : Prop :=
  earlier.timestamp ≤ later.timestamp ∧
    later.timestamp - earlier.timestamp = ((later.time : Int) - earlier.time) * 1000000

namespace FrameClock

/-- The clock shows a time, with the wraps counted from a given one on. -/
structure Reads (clock : FrameClock) (era time : Nat) : Prop where
  last : clock.lastMilliseconds.toNat = time % 2 ^ 32
  epoch : clock.millisecondEpoch.toNat = (time / 2 ^ 32 - era) * 2 ^ 32 % 2 ^ 64

theorem advance_first (time : Nat) :
    (advance {} (UInt32.ofNat time)).Reads (time / 2 ^ 32) time := by
  constructor
  · exact UInt32.toNat_ofNat'
  · have unwrapped : ¬ UInt32.ofNat time < 0 := by simp [UInt32.lt_iff_toNat_lt]
    simp [advance, unwrapped]

variable {clock : FrameClock} {era time next : Nat}

/-- A gap below half the range tells a wrap from a step back. -/
theorem Reads.advance (reads : clock.Reads era time) (counted : era ≤ time / 2 ^ 32)
    (ordered : time ≤ next) (spaced : next - time < 2 ^ 31) :
    (clock.advance (UInt32.ofNat next)).Reads era next := by
  obtain ⟨last, epoch⟩ := reads
  have stamp : (UInt32.ofNat next).toNat = next % 2 ^ 32 := UInt32.toNat_ofNat'
  constructor
  · exact stamp
  · unfold FrameClock.advance
    dsimp only
    by_cases before : UInt32.ofNat next < clock.lastMilliseconds
    · have below : next % 2 ^ 32 < time % 2 ^ 32 := by
        rwa [UInt32.lt_iff_toNat_lt, stamp, last] at before
      have back : (clock.lastMilliseconds - UInt32.ofNat next).toNat =
          time % 2 ^ 32 - next % 2 ^ 32 := by
        rw [UInt32.toNat_sub_of_le _ _ (UInt32.le_of_lt before), last, stamp]
      have far : clock.lastMilliseconds - UInt32.ofNat next > 4294967295 / 2 := by
        rw [gt_iff_lt, UInt32.lt_iff_toNat_lt, back]
        have half : (4294967295 / 2 : UInt32).toNat = 2147483647 := by decide
        omega
      rw [if_pos ⟨before, far⟩, UInt64.toNat_add, epoch]
      have wrap : ((1 : UInt64) <<< 32).toNat = 2 ^ 32 := by decide
      rw [wrap]
      omega
    · rw [if_neg fun both => before both.1, epoch]
      have above : ¬ next % 2 ^ 32 < time % 2 ^ 32 := by
        rwa [UInt32.lt_iff_toNat_lt, stamp, last] at before
      have same : next / 2 ^ 32 = time / 2 ^ 32 := by omega
      rw [same]

theorem Reads.unwrapped (reads : clock.Reads era time) (counted : era ≤ time / 2 ^ 32) :
    clock.unwrapped.toNat = (time - era * 2 ^ 32) % 2 ^ 64 := by
  unfold FrameClock.unwrapped
  rw [UInt64.toNat_add, UInt32.toNat_toUInt64, reads.last, reads.epoch]
  omega

end FrameClock

/-- A count whose nanoseconds fit keeps its value. -/
theorem to_nanoseconds_exact {unwrapped : UInt64} (fits : unwrapped.toNat * 1000000 < 2 ^ 63) :
    toNanoseconds unwrapped = (unwrapped.toNat : Int) * 1000000 := by
  unfold toNanoseconds
  have signed : unwrapped.toInt64.toInt = (unwrapped.toNat : Int) := by
    have small : 2 * unwrapped.toBitVec.toNat < 2 ^ 64 := by
      have value : unwrapped.toBitVec.toNat = unwrapped.toNat := rfl
      omega
    exact BitVec.toInt_eq_toNat_of_lt small
  rw [signed]
  apply Int.bmod_eq_of_le <;> omega

/-! ### The host's last timestamp -/

namespace Host

variable {host next : Host}

/-- A part of a UI task leaves the last timestamp alone. -/
theorem run_ui_timestamp (step : UiStep) :
    (host.runUiStep step).state.frame.lastTimestamp = host.state.frame.lastTimestamp := by
  cases step with
  | invoke generation requireRunning event =>
    unfold runUiStep invokeDelegate
    dsimp only
    split <;> rfl
  | frameRequested generation request =>
    unfold runUiStep invokeDelegate
    dsimp only
    split
    · split <;> rfl
    · rfl
  | frameDelivered =>
    have armed := HostWindowState.Steady.arm
      { host.state with frame := { host.state.frame with delivering := false } }
    exact ((Steady.settle _ _ _).fields.timestamp).trans armed.timestamp
  | dropSemantics => rfl
  | finishShutdown generation =>
    exact ((Steady.release _ _).trans (Steady.schedule_platform_shutdown _ _)).fields.timestamp

/-- Only a frame pulse moves the last timestamp. -/
theorem perform_timestamp {call : Call} (unpulsed : call.unpulsed = true)
    (performed : host.perform call = some next) :
    next.state.frame.lastTimestamp = host.state.frame.lastTimestamp := by
  cases call with
  | bindDelegate delegate onPlatform =>
    cases performed
    exact (Steady.bind_delegate _ _ _).fields.timestamp
  | resetBinding generation =>
    cases performed
    exact (Steady.reset_binding _ _).fields.timestamp
  | expireDelegate =>
    cases performed
    rfl
  | requestFrame onPlatform =>
    cases performed
    exact (Steady.request_frame _ _).fields.timestamp
  | shutdown onPlatform =>
    cases performed
    exact (Steady.shutdown _ _).fields.timestamp
  | setMetrics logicalSize physicalWidth physicalHeight devicePixelRatio =>
    cases performed
    exact (Steady.set_metrics _ _ _ _ _).fields.timestamp
  | setVisible visible =>
    cases performed
    exact (Steady.set_visible _ _).fields.timestamp
  | setFocused focused =>
    cases performed
    exact (Steady.set_focused _ _).fields.timestamp
  | framePulse timestamp generation => cases unpulsed
  | sendPointer event =>
    cases performed
    exact (Steady.send_pointer _ _).fields.timestamp
  | setSurfaceState surface =>
    cases performed
    exact (Steady.set_surface_state _ _).fields.timestamp
  | runUi =>
    unfold perform at performed
    cases queued : host.uiQueue with
    | nil => simp [queued] at performed
    | cons step rest =>
      simp only [queued, Option.some.injEq] at performed
      subst performed
      exact run_ui_timestamp step
  | runPlatform fails =>
    unfold perform at performed
    cases queued : host.platformQueue with
    | nil => simp [queued] at performed
    | cons task rest =>
      simp only [queued, Option.some.injEq] at performed
      subst performed
      exact (Steady.run_platform _ _ _).fields.timestamp

theorem post_ui_state (task : List UiStep) : (host.postUi task).2.state = host.state := by
  unfold postUi tryPostUi
  dsimp only
  split <;> rfl

/-- A frame pulse leaves the last timestamp or makes its own the last. -/
theorem frame_pulse_last (timestamp : Int) (generation : Nat) :
    (host.framePulse timestamp generation).state.frame.lastTimestamp =
        host.state.frame.lastTimestamp ∨
      (host.framePulse timestamp generation).state.frame.lastTimestamp = some timestamp := by
  unfold framePulse
  obtain ⟨outcome, rfl | rfl, done⟩ | ⟨_, _, _, _, done⟩ | ⟨_, _, _, _, done⟩ :=
    HostWindowState.frame_pulse_cases host.state timestamp generation
  · rw [done]
    exact .inl rfl
  · rw [done]
    exact .inl rfl
  · rw [done]
    apply Or.inl
    exact (Steady.shutdown _ _).fields.timestamp
  · rw [done]
    apply Or.inr
    dsimp only
    split
    · rw [post_ui_state]
    · rw [(Steady.shutdown _ _).fields.timestamp, post_ui_state]

end Host

/-! ### The frame and its callback -/

/-- A frame waits under the generation its surface expects the callback for. -/
structure WaylandWindow.Held (window : WaylandWindow) : Prop where
  generation : window.surfaceState.nextCommitGeneration ≠ 0
  frame : ∀ frame ∈ window.frame, window.nativeRunning = true ∧ frame.stateGeneration ≠ 0 ∧
    window.surfaceState.frameCallbackGeneration = frame.stateGeneration

/-- Neither the clock nor the host's last timestamp moved. -/
structure WaylandWindow.Quiet (window next : WaylandWindow) : Prop where
  clock : next.clock = window.clock
  timestamp : next.driver.state.frame.lastTimestamp = window.driver.state.frame.lastTimestamp

/-- What a surface call leaves alone that no callback depends on. -/
structure WaylandSurfaceState.Awaits (surface next : WaylandSurfaceState) : Prop where
  generation : next.nextCommitGeneration = surface.nextCommitGeneration
  callback : next.frameCallbackGeneration = surface.frameCallbackGeneration

namespace WaylandSurfaceState.Awaits

variable {surface next : WaylandSurfaceState}

theorem begin_initial_commit (surface : WaylandSurfaceState) :
    surface.Awaits surface.beginInitialCommit.2 := by
  unfold beginInitialCommit
  split
  · exact ⟨rfl, rfl⟩
  · exact ⟨rfl, rfl⟩

theorem receive_toplevel_configure {width height : UInt32}
    (returned : surface.receiveToplevelConfigure width height = .ok next) :
    surface.Awaits next := by
  unfold receiveToplevelConfigure at returned
  split at returned
  · cases returned
  · cases returned
    exact ⟨rfl, rfl⟩

theorem receive_surface_configure {serial : UInt32}
    (returned : surface.receiveSurfaceConfigure serial = .ok next) : surface.Awaits next := by
  unfold receiveSurfaceConfigure at returned
  split at returned
  · cases returned
  · obtain rfl := advance_revision_cases returned
    exact ⟨rfl, rfl⟩

theorem set_preferred_scale {numerator : UInt32}
    (returned : surface.setPreferredScale numerator = .ok next) : surface.Awaits next := by
  unfold setPreferredScale at returned
  split at returned
  · cases returned
  split at returned
  · cases returned
    exact ⟨rfl, rfl⟩
  · obtain rfl := advance_revision_cases returned
    exact ⟨rfl, rfl⟩

end WaylandSurfaceState.Awaits

namespace WaylandWindow

variable {window middle next : WaylandWindow}

theorem Quiet.refl (window : WaylandWindow) : window.Quiet window := ⟨rfl, rfl⟩

theorem Quiet.trans (first : window.Quiet middle) (second : middle.Quiet next) :
    window.Quiet next :=
  ⟨second.clock.trans first.clock, second.timestamp.trans first.timestamp⟩

theorem Held.surface (held : window.Held) {surfaceState : WaylandSurfaceState}
    (awaits : window.surfaceState.Awaits surfaceState) : { window with surfaceState }.Held := by
  constructor
  · rw [awaits.generation]
    exact held.generation
  · intro frame waiting
    obtain ⟨running, nonzero, expected⟩ := held.frame frame waiting
    exact ⟨running, nonzero, awaits.callback.trans expected⟩

/-- Without a frame only the commit counter matters. -/
theorem Held.of_none (empty : window.frame = none)
    (generation : window.surfaceState.nextCommitGeneration ≠ 0) : window.Held := by
  refine ⟨generation, ?_⟩
  rw [empty]
  exact nofun

theorem Held.driver (held : window.Held) (driver : Host) : { window with driver }.Held :=
  ⟨held.generation, held.frame⟩

theorem Quiet.fail_native (window : WaylandWindow) : window.Quiet window.failNative where
  clock := rfl
  timestamp := ((Host.Steady.set_surface_state _ _).trans (.shutdown _ _)).fields.timestamp

theorem Quiet.set_metrics (window : WaylandWindow) (plan : WaylandCommit) :
    window.Quiet (window.setMetrics plan) where
  clock := rfl
  timestamp := (Host.Steady.set_metrics _ _ _ _ _).fields.timestamp

/-- A plan of the surface as it stands is submitted. -/
theorem submit_planned (surface : WaylandSurfaceState) (plan : WaylandCommit)
    (prepared : surface.prepared = some plan)
    (revision : plan.stateRevision = surface.stateRevision) :
    surface.submitCommit plan =
      (true, { surface with
        appliedExtent := surface.desiredExtent
        appliedScale := plan.scaleNumerator
        pendingConfigure := none
        dirty := false
        configured := true
        frameCallbackGeneration :=
          if plan.requestFrameCallback then plan.generation else surface.frameCallbackGeneration
        frameDemand := if plan.requestFrameCallback then false else surface.frameDemand
        prepared := none }) := by
  unfold submitCommit
  rw [if_neg]
  rintro (other | stale)
  · exact other prepared
  · exact stale revision

/-- A commit leaves the clock alone, and its frame waits for its own callback. -/
theorem present_kept (held : window.Held) (resources : CommitResources) :
    (window.present resources).2.Held ∧ window.Quiet (window.present resources).2 := by
  unfold present
  by_cases running : window.nativeRunning = true
  case neg =>
    rw [if_pos running]
    exact ⟨held, .refl _⟩
  rw [if_neg (not_not_intro running)]
  obtain ⟨what, failed⟩ | ⟨nothing, _⟩ |
    ⟨plan, planned, room, generation, revision, _, _, _, requests⟩ :=
    prepare_commit_cases window.surfaceState
  · rw [failed]
    exact ⟨held, .refl _⟩
  · rw [nothing]
    exact ⟨held, .refl _⟩
  rw [planned]
  dsimp only
  have counted := next_generation_nonzero room
  -- the counter has moved on; what the surface awaits has not
  have waiting : ∀ frame ∈ window.frame, window.nativeRunning = true ∧
      frame.stateGeneration ≠ 0 ∧
      window.surfaceState.frameCallbackGeneration = frame.stateGeneration := held.frame
  by_cases buffered : resources.buffer = true
  case neg =>
    rw [if_pos buffered]
    have discarded : (discardCommit { window.surfaceState with
        prepared := some plan
        nextCommitGeneration := window.surfaceState.nextCommitGeneration + 1 } plan).2 =
        { window.surfaceState with
          prepared := none
          nextCommitGeneration := window.surfaceState.nextCommitGeneration + 1
          dirty := true } := by
      simp [discardCommit]
    rw [discarded]
    exact ⟨⟨counted, waiting⟩, rfl, rfl⟩
  rw [if_neg (not_not_intro buffered)]
  have submitted := submit_planned { window.surfaceState with
    prepared := some plan
    nextCommitGeneration := window.surfaceState.nextCommitGeneration + 1 } plan rfl revision
  rw [submitted]
  dsimp only
  by_cases asked : plan.requestFrameCallback = true
  case neg =>
    rw [if_pos asked, if_neg asked]
    exact ⟨⟨counted, waiting⟩, rfl, (Quiet.set_metrics _ _).timestamp⟩
  rw [if_neg (not_not_intro asked), if_pos asked]
  have free : window.surfaceState.frameCallbackGeneration = 0 := by
    rw [asked] at requests
    have able := requests.symm
    simp only [canRequestFrame, Bool.and_eq_true, beq_iff_eq] at able
    exact able.2
  have none : window.frame = none := by
    cases held : window.frame with
    | none => rfl
    | some frame =>
      obtain ⟨_, nonzero, expected⟩ := waiting frame held
      exact absurd (expected.symm.trans free) nonzero
  by_cases created : resources.callback = true
  case neg =>
    rw [if_pos created]
    exact ⟨.of_none none counted, rfl, rfl⟩
  rw [if_neg (not_not_intro created)]
  constructor
  · refine ⟨counted, ?_⟩
    intro frame waiting
    obtain rfl := Option.some.inj waiting
    exact ⟨running, generation ▸ held.generation, rfl⟩
  · exact ⟨rfl, (Quiet.set_metrics _ _).timestamp⟩

theorem present_or_fail_kept (held : window.Held) (resources : CommitResources) :
    (window.presentOrFail resources).Held ∧ window.Quiet (window.presentOrFail resources) := by
  obtain ⟨kept, quiet⟩ := present_kept held resources
  unfold presentOrFail
  dsimp only
  split
  · exact ⟨kept, quiet⟩
  · exact ⟨kept.driver _, quiet.trans (.fail_native _)⟩

theorem change_surface_kept (held : window.Held) (resources : CommitResources)
    {changed : Except Failure WaylandSurfaceState}
    (awaits : ∀ surfaceState, changed = .ok surfaceState →
      window.surfaceState.Awaits surfaceState) :
    (window.changeSurface resources changed).Held ∧
      window.Quiet (window.changeSurface resources changed) := by
  unfold changeSurface
  cases changed with
  | error failure => exact ⟨held.driver _, .fail_native _⟩
  | ok surfaceState =>
    obtain ⟨kept, quiet⟩ := present_or_fail_kept (held.surface (awaits surfaceState rfl)) resources
    exact ⟨kept, quiet.clock, quiet.timestamp⟩

theorem request_frame_kept (held : window.Held) (generation : Nat)
    (resources : CommitResources) :
    (window.requestFrame generation resources).Held ∧
      window.Quiet (window.requestFrame generation resources) := by
  have asked : Held { window with
      hostFrameGeneration := generation
      surfaceState := window.surfaceState.requestFrame } := ⟨held.generation, held.frame⟩
  obtain ⟨kept, quiet⟩ := present_or_fail_kept asked resources
  exact ⟨kept, quiet.clock, quiet.timestamp⟩

/-- An answered callback is not awaited any more. -/
theorem frame_done_generation (surface : WaylandSurfaceState) (generation : UInt64) :
    (surface.frameDone generation).2.nextCommitGeneration = surface.nextCommitGeneration := by
  unfold frameDone
  split <;> rfl

theorem cancel_frame_kept (held : window.Held) :
    window.cancelFrame.Held ∧ window.Quiet window.cancelFrame := by
  unfold cancelFrame
  split
  · exact ⟨held, .refl _⟩
  · constructor
    · apply Held.of_none rfl
      rw [frame_done_generation]
      exact held.generation
    · exact ⟨rfl, rfl⟩

theorem shutdown_native_kept (held : window.Held) :
    window.shutdownNative.Held ∧ window.Quiet window.shutdownNative := by
  unfold shutdownNative
  split
  · exact ⟨held, .refl _⟩
  · exact ⟨.of_none rfl held.generation, rfl, rfl⟩

/-- A callback that arrives is the one its surface expects: the clock moves on and
the host is pulsed. -/
theorem handle_done_pulses (held : window.Held) {frame : WaylandFrame}
    (waiting : window.frame = some frame) (milliseconds : UInt32) (resources : CommitResources) :
    ∃ next, window.handleDone frame milliseconds resources =
        (some (toNanoseconds (window.clock.advance milliseconds).unwrapped), next) ∧
      next.Held ∧ next.clock = window.clock.advance milliseconds ∧
      (next.driver.state.frame.lastTimestamp = window.driver.state.frame.lastTimestamp ∨
        next.driver.state.frame.lastTimestamp =
          some (toNanoseconds (window.clock.advance milliseconds).unwrapped)) := by
  obtain ⟨running, nonzero, expected⟩ := held.frame frame waiting
  have answered : window.surfaceState.frameDone frame.stateGeneration =
      (true, { window.surfaceState with frameCallbackGeneration := 0 }) := by
    unfold frameDone
    rw [if_neg]
    rintro (zero | other)
    · exact nonzero zero
    · exact other expected
  unfold handleDone
  dsimp only
  rw [if_neg (not_not_intro running), answered]
  dsimp only
  generalize stamped : toNanoseconds (window.clock.advance milliseconds).unwrapped = timestamp
  have pulsed : Held { window with
      frame := none
      surfaceState := { window.surfaceState with frameCallbackGeneration := 0 }
      clock := window.clock.advance milliseconds
      driver := window.driver.framePulse timestamp frame.hostGeneration } :=
    .of_none rfl held.generation
  obtain ⟨kept, quiet⟩ := present_or_fail_kept pulsed resources
  refine ⟨_, rfl, kept, quiet.clock, ?_⟩
  rw [quiet.timestamp]
  exact Host.frame_pulse_last timestamp frame.hostGeneration

end WaylandWindow

namespace FrameClockRun

variable {run next : FrameClockRun}

/-- The clock and the logs are left alone. -/
structure Quiet (run next : FrameClockRun) : Prop where
  callbacks : next.callbacks = run.callbacks
  pulses : next.pulses = run.pulses
  window : run.window.Quiet next.window

/-- A callback arrived and became a pulse. -/
structure Pulsed (run next : FrameClockRun) (time : Nat) (pulse : FramePulse) : Prop where
  arrived : pulse.time = time
  timestamp : pulse.timestamp = toNanoseconds next.window.clock.unwrapped
  outcome : ∃ generation, pulse.outcome =
    (run.window.driver.state.framePulseLocked pulse.timestamp generation).1
  callbacks : next.callbacks = run.callbacks ++ [time]
  pulses : next.pulses = run.pulses ++ [pulse]
  clock : next.window.clock = run.window.clock.advance (UInt32.ofNat time)
  last : next.window.driver.state.frame.lastTimestamp =
      run.window.driver.state.frame.lastTimestamp ∨
    next.window.driver.state.frame.lastTimestamp = some pulse.timestamp

theorem Quiet.of_window {window : WaylandWindow} (quiet : run.window.Quiet window) :
    run.Quiet { run with window } := ⟨rfl, rfl, quiet⟩

theorem perform_cases {call : FrameClockCall} (performed : run.perform call = some next)
    (held : run.window.Held) :
    next.window.Held ∧ (run.Quiet next ∨
      ∃ time resources pulse, call = .done time resources ∧ run.Pulsed next time pulse) := by
  cases call with
  | done time resources =>
    obtain ⟨frame, waiting, handled⟩ := Option.map_eq_some_iff.mp performed
    obtain ⟨window, pulsed, kept, clock, last⟩ :=
      WaylandWindow.handle_done_pulses held waiting (UInt32.ofNat time) resources
    rw [pulsed] at handled
    subst handled
    refine ⟨kept, .inr ⟨time, resources, _, rfl, rfl, ?_, ⟨_, rfl⟩, rfl, rfl, clock, last⟩⟩
    rw [clock]
  | requestFrame generation resources =>
    cases performed
    obtain ⟨kept, quiet⟩ := WaylandWindow.request_frame_kept held generation resources
    exact ⟨kept, .inl (.of_window quiet)⟩
  | cancelFrame =>
    cases performed
    obtain ⟨kept, quiet⟩ := WaylandWindow.cancel_frame_kept held
    exact ⟨kept, .inl (.of_window quiet)⟩
  | beginInitialCommit =>
    cases performed
    exact ⟨held.surface (.begin_initial_commit _), .inl (.of_window ⟨rfl, rfl⟩)⟩
  | toplevelConfigure width height =>
    unfold perform at performed
    cases changed : run.window.surfaceState.receiveToplevelConfigure width height with
    | error failure =>
      simp only [changed, Option.some.injEq] at performed
      subst performed
      exact ⟨held.driver _, .inl (.of_window (.fail_native _))⟩
    | ok surfaceState =>
      simp only [changed, Option.some.injEq] at performed
      subst performed
      exact ⟨held.surface (.receive_toplevel_configure changed), .inl (.of_window ⟨rfl, rfl⟩)⟩
  | surfaceConfigure serial resources =>
    cases performed
    obtain ⟨kept, quiet⟩ := WaylandWindow.change_surface_kept held resources
      fun _ => Awaits.receive_surface_configure
    exact ⟨kept, .inl (.of_window quiet)⟩
  | preferredScale numerator resources =>
    cases performed
    obtain ⟨kept, quiet⟩ := WaylandWindow.change_surface_kept held resources
      fun _ => Awaits.set_preferred_scale
    exact ⟨kept, .inl (.of_window quiet)⟩
  | shutdown =>
    cases performed
    obtain ⟨kept, quiet⟩ := WaylandWindow.shutdown_native_kept held
    exact ⟨kept, .inl (.of_window quiet)⟩
  | host call =>
    unfold perform at performed
    dsimp only at performed
    split at performed
    case isFalse => cases performed
    case isTrue unpulsed =>
      obtain ⟨driver, moved, rfl⟩ := Option.map_eq_some_iff.mp performed
      exact ⟨held.driver driver,
        .inl (.of_window ⟨rfl, Host.perform_timestamp unpulsed moved⟩)⟩

/-- A step, its posts included. -/
theorem step_cases {action : List Bool × FrameClockCall} (held : run.window.Held)
    (stepped : frameClockMachine.step run action = some next) :
    next.window.Held ∧ (run.Quiet next ∨
      ∃ time resources pulse, action.2 = .done time resources ∧ run.Pulsed next time pulse) := by
  have posted : ({ run with window := { run.window with
      driver := { run.window.driver with posts := action.1 } } } : FrameClockRun).perform action.2 =
      some next := stepped
  obtain ⟨kept, ⟨callbacks, pulses, clock, timestamp⟩ | ⟨time, resources, pulse, called, pulsed⟩⟩ :=
    perform_cases posted (held.driver _)
  · exact ⟨kept, .inl ⟨callbacks, pulses, clock, timestamp⟩⟩
  · obtain ⟨same, stamp, outcome, callbacks, pulses, clock, last⟩ := pulsed
    exact ⟨kept, .inr ⟨time, resources, pulse, called, same, stamp, outcome, callbacks, pulses,
      clock, last⟩⟩

/-- The wraps before the first callback. -/
def era (run : FrameClockRun) : Nat := run.callbacks.headD 0 / 2 ^ 32

/-- What holds across any number of wraps. -/
structure Sound (run : FrameClockRun) : Prop where
  held : run.window.Held
  timed : run.pulses.map FramePulse.time = run.callbacks
  ordered : run.callbacks.Pairwise (· ≤ ·)
  fresh : run.callbacks = [] → run.window.clock = {}
  reads : ∀ last ∈ run.callbacks.getLast?, run.window.clock.Reads run.era last
  stamped : ∀ pulse ∈ run.pulses,
    pulse.timestamp = toNanoseconds (UInt64.ofNat (pulse.time - run.era * 2 ^ 32))

theorem Sound.start (initial : frameClockMachine.init run) : run.Sound := by
  obtain ⟨driver, extent, fractional, surfaceState, _, created, rfl⟩ := initial
  have generation : surfaceState.nextCommitGeneration ≠ 0 := by
    unfold create at created
    split at created
    · cases created
    · cases created
      have first : (1 : UInt64) ≠ 0 := by decide
      exact first
  exact ⟨.of_none rfl generation, rfl, List.Pairwise.nil, fun _ => rfl, nofun, nofun⟩

/-- The first callback is the earliest. -/
theorem Sound.counted (sound : run.Sound) {time : Nat} (member : time ∈ run.callbacks) :
    run.era ≤ time / 2 ^ 32 := by
  have ordered := sound.ordered
  unfold era
  cases called : run.callbacks with
  | nil => simp [called] at member
  | cons first rest =>
    rw [called] at member ordered
    obtain ⟨before, _⟩ := List.pairwise_cons.mp ordered
    apply Nat.div_le_div_right
    obtain rfl | later := List.mem_cons.mp member
    · exact le_rfl
    · exact before time later

theorem Sound.quiet (sound : run.Sound) (held : next.window.Held) (quiet : run.Quiet next) :
    next.Sound := by
  obtain ⟨callbacks, pulses, clock, _⟩ := quiet
  have era : next.era = run.era := by rw [FrameClockRun.era, callbacks, FrameClockRun.era]
  constructor
  · exact held
  · rw [pulses, callbacks]
    exact sound.timed
  · rw [callbacks]
    exact sound.ordered
  · rw [callbacks, clock]
    exact sound.fresh
  · rw [callbacks, clock, era]
    exact sound.reads
  · rw [pulses, era]
    exact sound.stamped

/-- The era does not change after the first callback. -/
theorem Pulsed.era {time : Nat} {pulse : FramePulse} (pulsed : run.Pulsed next time pulse) :
    next.era = if run.callbacks = [] then time / 2 ^ 32 else run.era := by
  unfold FrameClockRun.era
  rw [pulsed.callbacks]
  cases run.callbacks with
  | nil => rfl
  | cons first rest => rfl

theorem Sound.pulsed {time : Nat} {pulse : FramePulse} (sound : run.Sound)
    (held : next.window.Held) (pulsed : run.Pulsed next time pulse)
    (spaced : ∀ last ∈ run.callbacks.getLast?, last ≤ time ∧ time - last < 2 ^ 31) :
    next.Sound := by
  have era := pulsed.era
  -- the clock reads the new time, counted from the era of the first callback
  have reads : next.window.clock.Reads next.era time ∧ next.era ≤ time / 2 ^ 32 := by
    cases called : run.callbacks.getLast? with
    | none =>
      have none : run.callbacks = [] := List.getLast?_eq_none_iff.mp called
      rw [if_pos none] at era
      rw [era, pulsed.clock, sound.fresh none]
      exact ⟨FrameClock.advance_first time, le_rfl⟩
    | some last =>
      have member : last ∈ run.callbacks := List.mem_of_getLast? called
      rw [if_neg (List.ne_nil_of_mem member)] at era
      obtain ⟨ordered, gap⟩ := spaced last called
      have counted := sound.counted member
      rw [era, pulsed.clock]
      exact ⟨(sound.reads last called).advance counted ordered gap,
        counted.trans (Nat.div_le_div_right ordered)⟩
  have unwrapped : next.window.clock.unwrapped = UInt64.ofNat (time - next.era * 2 ^ 32) := by
    apply UInt64.toNat_inj.mp
    rw [reads.1.unwrapped reads.2, UInt64.toNat_ofNat']
  constructor
  · exact held
  · rw [pulsed.pulses, pulsed.callbacks, List.map_append, sound.timed, List.map_singleton,
      pulsed.arrived]
  · rw [pulsed.callbacks, List.pairwise_append]
    refine ⟨sound.ordered, List.pairwise_singleton _ _, ?_⟩
    intro earlier member later only
    obtain rfl := List.mem_singleton.mp only
    cases called : run.callbacks.getLast? with
    | none => simp [List.getLast?_eq_none_iff.mp called] at member
    | some last =>
      obtain ⟨front, whole⟩ := List.getLast?_eq_some_iff.mp called
      have ordered := sound.ordered
      rw [whole] at member ordered
      have before : earlier ≤ last := by
        obtain inside | only := List.mem_append.mp member
        · have across := (List.pairwise_append.mp ordered).2.2
          exact across earlier inside last (List.mem_singleton.mpr rfl)
        · exact (List.mem_singleton.mp only).le
      exact before.trans (spaced last called).1
  · intro none
    simp [pulsed.callbacks] at none
  · intro last latest
    rw [pulsed.callbacks, List.getLast?_concat] at latest
    obtain rfl := Option.some.inj latest
    exact reads.1
  · intro other member
    rw [pulsed.pulses] at member
    obtain earlier | latest := List.mem_append.mp member
    · have called : run.callbacks ≠ [] := by
        rw [← sound.timed]
        exact List.ne_nil_of_mem (List.mem_map_of_mem earlier)
      rw [era, if_neg called]
      exact sound.stamped other earlier
    · obtain rfl := List.mem_singleton.mp latest
      rw [pulsed.timestamp, unwrapped, pulsed.arrived]

/-- In every run of spaced callbacks the clock is sound. -/
theorem Sound.of_spaced (reached : Reaches frameClockMachine Spaced run) : run.Sound := by
  apply Reaches.invariant Sound _ _ reached
  · exact fun _ initial => Sound.start initial
  · intro run action next sound spaced stepped
    obtain ⟨held, quiet | ⟨time, resources, pulse, called, pulsed⟩⟩ := step_cases sound.held stepped
    · exact sound.quiet held quiet
    · exact sound.pulsed held pulsed (spaced time resources called)

/-- What holds as long as the nanoseconds fit. -/
structure Exact (run : FrameClockRun) : Prop where
  sound : run.Sound
  fits : ∀ time ∈ run.callbacks, (time - run.era * 2 ^ 32) * 1000000 < 2 ^ 63
  latest : ∀ last ∈ run.window.driver.state.frame.lastTimestamp,
    ∃ pulse ∈ run.pulses, pulse.timestamp = last
  accepted : ∀ pulse ∈ run.pulses, pulse.outcome ≠ .invalidTimestamp

/-- The time of a pulse is that of a callback. -/
theorem Sound.arrived (sound : run.Sound) {pulse : FramePulse} (member : pulse ∈ run.pulses) :
    pulse.time ∈ run.callbacks := by
  rw [← sound.timed]
  exact List.mem_map_of_mem member

/-- The timestamp of a pulse, counted from the era of the first callback. -/
theorem Sound.timestamp (sound : run.Sound) {pulse : FramePulse} (member : pulse ∈ run.pulses)
    (fits : (pulse.time - run.era * 2 ^ 32) * 1000000 < 2 ^ 63) :
    pulse.timestamp = ((pulse.time : Int) - run.era * 2 ^ 32) * 1000000 := by
  have counted := sound.counted (sound.arrived member)
  have small : (UInt64.ofNat (pulse.time - run.era * 2 ^ 32)).toNat =
      pulse.time - run.era * 2 ^ 32 := by
    rw [UInt64.toNat_ofNat']
    omega
  rw [sound.stamped pulse member, to_nanoseconds_exact (by rwa [small]), small]
  omega

/-- Pulses lie apart as their times do. -/
theorem Exact.apart (precise : run.Exact) : run.pulses.Pairwise FramePulse.Apart := by
  have ordered : run.pulses.Pairwise fun earlier later => earlier.time ≤ later.time := by
    have ordered := precise.sound.ordered
    rw [← precise.sound.timed] at ordered
    exact List.pairwise_map.mp ordered
  apply ordered.imp_of_mem
  intro earlier later first second before
  have stamp {pulse : FramePulse} (member : pulse ∈ run.pulses) :=
    precise.sound.timestamp member (precise.fits _ (precise.sound.arrived member))
  unfold FramePulse.Apart
  rw [stamp first, stamp second]
  constructor <;> omega

/-- The host takes a timestamp that does not go back. -/
theorem pulse_not_invalid {state : HostWindowState} {timestamp : Int} {generation : Nat}
    (positive : 0 ≤ timestamp) (later : ∀ last ∈ state.frame.lastTimestamp, last ≤ timestamp) :
    (state.framePulseLocked timestamp generation).1 ≠ .invalidTimestamp := by
  have monotonic : ¬ (timestamp < 0 ∨
      state.frame.lastTimestamp.any (timestamp < ·) = true) := by
    rintro (negative | back)
    · omega
    · obtain ⟨last, held, back⟩ := (Option.any_eq_true _ _).mp back
      have before := later last held
      exact absurd (of_decide_eq_true back) (not_lt.mpr before)
  unfold HostWindowState.framePulseLocked
  rw [if_neg monotonic]
  split
  · nofun
  split
  · nofun
  · nofun

theorem Exact.pulsed {time : Nat} {pulse : FramePulse} (precise : run.Exact)
    (sound : next.Sound) (pulsed : run.Pulsed next time pulse)
    (fits : (time - run.callbacks.headD time / 2 ^ 32 * 2 ^ 32) * 1000000 < 2 ^ 63) :
    next.Exact := by
  have era := pulsed.era
  have allFit : ∀ time ∈ next.callbacks, (time - next.era * 2 ^ 32) * 1000000 < 2 ^ 63 := by
    intro other member
    rw [pulsed.callbacks] at member
    cases called : run.callbacks with
    | nil =>
      simp only [called, List.nil_append, List.mem_singleton] at member
      subst member
      rw [era, if_pos called]
      simpa [called] using fits
    | cons first rest =>
      have some : run.callbacks ≠ [] := by simp [called]
      rw [era, if_neg some]
      obtain earlier | latest := List.mem_append.mp member
      · exact precise.fits other earlier
      · obtain rfl := List.mem_singleton.mp latest
        rw [FrameClockRun.era, called]
        rwa [called] at fits
  have stamp {other : FramePulse} (member : other ∈ next.pulses) :=
    sound.timestamp member (allFit _ (sound.arrived member))
  have newest : pulse ∈ next.pulses := by
    rw [pulsed.pulses]
    exact List.mem_append_right _ (List.mem_singleton.mpr rfl)
  have older {other : FramePulse} (member : other ∈ run.pulses) : other ∈ next.pulses := by
    rw [pulsed.pulses]
    exact List.mem_append_left _ member
  refine ⟨sound, allFit, ?_, ?_⟩
  · intro last held
    obtain same | latest := pulsed.last
    · rw [same] at held
      obtain ⟨other, member, stamped⟩ := precise.latest last held
      exact ⟨other, older member, stamped⟩
    · rw [latest] at held
      exact ⟨pulse, newest, Option.some.inj held⟩
  · intro other member
    rw [pulsed.pulses] at member
    obtain earlier | latest := List.mem_append.mp member
    · exact precise.accepted other earlier
    · obtain rfl := List.mem_singleton.mp latest
      obtain ⟨generation, outcome⟩ := pulsed.outcome
      rw [outcome]
      have counted := sound.counted (sound.arrived newest)
      apply pulse_not_invalid
      · rw [stamp newest]
        omega
      · intro last held
        obtain ⟨earlier, member, stamped⟩ := precise.latest last held
        have ordered := sound.ordered
        rw [pulsed.callbacks, List.pairwise_append] at ordered
        have before : earlier.time ≤ time :=
          ordered.2.2 _ (precise.sound.arrived member) time (List.mem_singleton.mpr rfl)
        rw [← stamped, stamp newest, stamp (older member), pulsed.arrived]
        omega

theorem Exact.of_timely (reached : Reaches frameClockMachine Timely run) : run.Exact := by
  apply Reaches.invariant Exact _ _ reached
  · rintro run initial
    have sound := Sound.start initial
    obtain ⟨driver, extent, fractional, surfaceState, started, _, rfl⟩ := initial
    obtain ⟨id, logicalSize, physicalWidth, physicalHeight, devicePixelRatio, visible, state,
      created, rfl⟩ := started
    refine ⟨sound, nofun, ?_, nofun⟩
    rw [Host.Framed.created_frame created]
    exact nofun
  · intro run action next precise timely stepped
    obtain ⟨held, quiet | ⟨time, resources, pulse, called, pulsed⟩⟩ :=
      step_cases precise.sound.held stepped
    · have ⟨callbacks, pulses, _, timestamp⟩ := quiet
      have era : next.era = run.era := by rw [FrameClockRun.era, callbacks, FrameClockRun.era]
      refine ⟨precise.sound.quiet held quiet, ?_, ?_, ?_⟩
      · rw [callbacks, era]
        exact precise.fits
      · rw [timestamp, pulses]
        exact precise.latest
      · rw [pulses]
        exact precise.accepted
    · have sound := precise.sound.pulsed held pulsed (timely.1 time resources called)
      exact precise.pulsed sound pulsed (timely.2 time resources called)

end FrameClockRun

/-- Every callback pulses the host, the timestamps lie apart exactly as the
compositor's times do, and the host rejects none of them. -/
theorem frame_clock_exact {run : FrameClockRun}
    (reached : Reaches frameClockMachine FrameClockRun.Timely run) :
    run.pulses.map FramePulse.time = run.callbacks ∧
      run.pulses.Pairwise FramePulse.Apart ∧
      ∀ pulse ∈ run.pulses, pulse.outcome ≠ .invalidTimestamp := by
  have precise := FrameClockRun.Exact.of_timely reached
  exact ⟨precise.sound.timed, precise.apart, precise.accepted⟩

/-- A configured surface between two frames. -/
def idleSurface (generation : UInt64) : WaylandSurfaceState where
  desiredExtent := ⟨1, 1⟩
  appliedExtent := ⟨1, 1⟩
  stateRevision := 2
  nextCommitGeneration := generation
  initialCommitStarted := true
  configured := true

/-- The plan that asks for the next frame callback. -/
def idlePlan (generation : UInt64) : WaylandCommit where
  generation
  stateRevision := 2
  configureSerial := none
  logicalExtent := ⟨1, 1⟩
  bufferExtent := ⟨1, 1⟩
  bufferScale := 1
  scaleNumerator := 120
  useViewporter := false
  requestFrameCallback := true

theorem idle_prepares {generation : UInt64} (room : generation ≠ maxCounter) :
    (idleSurface generation).requestFrame.prepareCommit =
      .ok (some (idlePlan generation), { (idleSurface generation).requestFrame with
        prepared := some (idlePlan generation)
        nextCommitGeneration := generation + 1 }) := by
  have dimension : checkedBufferDimension 1 120 = .ok 1 := by decide
  have scale : effectiveScale false 120 = 120 := by decide
  simp [prepareCommit, idleSurface, idlePlan, requestFrame, room, dimension, scale,
    canRequestFrame, maxUInt32, scaleDenominator]
  rfl

/-- A surface that waits for its callback, and wants nothing else. -/
def waitingSurface (generation : UInt64) : WaylandSurfaceState :=
  { idleSurface (generation + 1) with frameCallbackGeneration := generation }

/-- The host of a window of one pixel that has some frames behind it. -/
def restingHost (frames : Nat) (last : Option Int) : Host where
  state := {
    id := 1
    metrics := ⟨⟨1, 1⟩, 1, 1, 1, 1⟩
    visible := true
    frame := { generation := frames, nextSequence := frames + 1, lastTimestamp := last } }

/-- The host once its next frame is armed. -/
def armedHost (frames : Nat) (last : Option Int) : Host :=
  let host := restingHost frames last
  { host with state := { host.state with
      frame := { host.state.frame with
        demand := true, armed := true, generation := frames + 1 } } }

/-- The host while the UI has parts of a frame's delivery left. -/
def deliveringHost (frames : Nat) (last : Option Int) (left : List UiStep) : Host :=
  let host := restingHost frames last
  { host with
    state := { host.state with frame := { host.state.frame with delivering := true } }
    uiQueue := left }

namespace Host

variable {frames : Nat} {last : Option Int}

/-- The application asks for a frame, and the control is to be told its generation. -/
theorem resting_asked (left : frames < maxGeneration) :
    (restingHost frames last).perform (.requestFrame false) =
      some { armedHost frames last with
        platformQueue := [.frameControl ⟨false, some (frames + 1)⟩] } := by
  have unspent : frames ≠ maxGeneration := Nat.ne_of_lt left
  simp [perform, requestFrame, HostWindowState.requestFrameLocked, restingHost, armedHost,
    HostWindowState.armFrameLocked, FrameState.arm, HostWindowState.usable, unspent,
    frameGenerationExhausted, HostWindowState.frameGenerationExhaustedLocked, postFrameControl,
    postPlatform, postSucceeds]

/-- A pulse under the armed generation whose timestamp goes on is on its way to the UI. -/
theorem armed_pulsed (left : frames < maxGeneration - 1) {timestamp : Int}
    (ordered : ((armedHost frames last).state.framePulseLocked timestamp (frames + 1)).1 ≠
      .invalidTimestamp) :
    ∃ request, (armedHost frames last).framePulse timestamp (frames + 1) =
      deliveringHost (frames + 1) (some timestamp)
        [.frameRequested 0 request, .frameDelivered] := by
  have unspent : frames + 1 ≠ maxGeneration := by omega
  unfold HostWindowState.framePulseLocked at ordered
  unfold framePulse HostWindowState.framePulseLocked
  simp only [armedHost, deliveringHost, restingHost, unspent, if_false] at ordered ⊢
  by_cases back : timestamp < 0 ∨ last.any (timestamp < ·)
  · simp [back] at ordered
  · simp [back, postUi, tryPostUi, postSucceeds]

/-- The UI delivers the frame, for which no delegate is bound. -/
theorem pulsed_told (request : FrameRequest) :
    (deliveringHost frames last [.frameRequested 0 request, .frameDelivered]).perform .runUi =
      some (deliveringHost frames last [.frameDelivered]) := by
  simp [perform, runUiStep, invokeDelegate, invokes, deliveringHost, restingHost]

/-- A delivery ends, and nothing is armed again. -/
theorem told_rests :
    (deliveringHost frames last [.frameDelivered]).perform .runUi =
      some (restingHost frames last) := by
  simp [perform, runUiStep, deliveringHost, restingHost, HostWindowState.frameDeliveredLocked,
    HostWindowState.armFrameLocked, FrameState.arm, settleFrame, postFrameControl,
    frameGenerationExhausted, HostWindowState.frameGenerationExhaustedLocked]

/-- A commit of one pixel tells the host the metrics that it has. -/
theorem set_metrics_same {host : Host} (metrics : host.state.metrics = ⟨⟨1, 1⟩, 1, 1, 1, 1⟩) :
    host.setMetrics ⟨(1 : UInt32).toNat, (1 : UInt32).toNat⟩ (1 : UInt32).toNat (1 : UInt32).toNat
      ((120 : UInt32).toNat / scaleDenominator.toNat) = host := by
  have same : HostWindowState.sameMetrics host.state.metrics
      ⟨(1 : UInt32).toNat, (1 : UInt32).toNat⟩ (1 : UInt32).toNat (1 : UInt32).toNat
      ((120 : UInt32).toNat / scaleDenominator.toNat) = true := by
    rw [metrics]
    decide +kernel
  unfold setMetrics HostWindowState.setMetricsLocked
  rw [if_pos (.inr same)]

end Host

namespace WaylandWindow

/-- A window between two frames. -/
structure Idle (window : WaylandWindow) (generation : UInt64) (driver : Host) : Prop where
  running : window.nativeRunning = true
  frame : window.frame = none
  surface : window.surfaceState = idleSurface generation
  driver : window.driver = driver

/-- A window that waits for its callback. -/
structure Waiting (window : WaylandWindow) (generation : UInt64) (armed : Nat) (driver : Host) :
    Prop where
  running : window.nativeRunning = true
  frame : window.frame = some ⟨generation, armed⟩
  surface : window.surfaceState = waitingSurface generation
  driver : window.driver = driver

variable {window : WaylandWindow} {generation : UInt64} {driver : Host}

theorem Idle.requests (idle : window.Idle generation driver)
    (metrics : driver.state.metrics = ⟨⟨1, 1⟩, 1, 1, 1, 1⟩) (armed : Nat)
    (room : generation ≠ maxCounter) :
    (window.requestFrame armed ⟨true, true⟩).Waiting generation armed driver := by
  obtain ⟨own, running, surface, frame, hostGeneration, clock⟩ := window
  obtain ⟨rfl, rfl, rfl, rfl⟩ := idle
  have submitted := submit_planned { (idleSurface generation).requestFrame with
    prepared := some (idlePlan generation)
    nextCommitGeneration := generation + 1 } (idlePlan generation) rfl rfl
  simp only [requestFrame, presentOrFail, present, idle_prepares room, submitted]
  exact ⟨rfl, rfl, rfl, Host.set_metrics_same metrics⟩

theorem Waiting.answered {armed : Nat} (waiting : window.Waiting generation armed driver)
    (nonzero : generation ≠ 0) (milliseconds : UInt32) :
    ∃ timestamp next, window.handleDone ⟨generation, armed⟩ milliseconds ⟨true, true⟩ =
      (some timestamp, next) ∧ next.Idle (generation + 1) (driver.framePulse timestamp armed) := by
  obtain ⟨own, running, surface, frame, hostGeneration, clock⟩ := window
  obtain ⟨rfl, rfl, rfl, rfl⟩ := waiting
  have answered : (waitingSurface generation).frameDone generation =
      (true, idleSurface (generation + 1)) := by
    unfold frameDone
    rw [if_neg]
    · rfl
    · rintro (zero | other)
      · exact nonzero zero
      · exact other rfl
  have nothing : (idleSurface (generation + 1)).prepareCommit =
      .ok (none, idleSurface (generation + 1)) := rfl
  simp only [handleDone, answered, presentOrFail, present, nothing]
  exact ⟨_, _, rfl, rfl, rfl, rfl, rfl⟩

end WaylandWindow

namespace FrameClockRun
variable {run : FrameClockRun}

/-- A step that is no callback keeps to any times. -/
theorem timely_other (action : List Bool × FrameClockCall)
    (other : ∀ time resources, action.2 ≠ .done time resources) : run.Timely action :=
  ⟨fun time resources called => absurd called (other time resources),
    fun time resources called => absurd called (other time resources)⟩

/-- A call of the host, when its posts succeed. -/
theorem host_reached (reached : Reaches frameClockMachine Timely run) (call : Host.Call)
    {driver : Host} (unpulsed : call.unpulsed = true) (posts : run.window.driver.posts = [])
    (performed : run.window.driver.perform call = some driver) :
    Reaches frameClockMachine Timely { run with window := { run.window with driver } } := by
  have posted : { run.window.driver with posts := [] } = run.window.driver := by rw [← posts]
  have stepped : frameClockMachine.step run ([], .host call) =
      some { run with window := { run.window with driver } } := by
    simp only [frameClockMachine, posted, perform, if_pos unpulsed, performed, Option.map_some]
  exact reached.step (timely_other _ fun _ _ => FrameClockCall.noConfusion) stepped

variable {generation : UInt64} {frames : Nat} {last : Option Int}

/-- The application asks for a frame, and the control passes its generation on. -/
theorem frame_requested (reached : Reaches frameClockMachine Timely run)
    (idle : run.window.Idle generation (restingHost frames last))
    (left : frames < maxGeneration) (room : generation ≠ maxCounter) :
    ∃ next, Reaches frameClockMachine Timely next ∧ next.callbacks = run.callbacks ∧
      next.window.Waiting generation (frames + 1) (armedHost frames last) := by
  obtain ⟨running, frame, surface, driver⟩ := idle
  have asked := host_reached reached (.requestFrame false) rfl (by rw [driver]; rfl)
    (by rw [driver]; exact Host.resting_asked left)
  have told : Reaches frameClockMachine Timely
      { run with window := { run.window with driver := armedHost frames last } } :=
    host_reached asked (.runPlatform false) rfl rfl rfl
  have idle : WaylandWindow.Idle { run.window with driver := armedHost frames last }
      generation (armedHost frames last) := ⟨running, frame, surface, rfl⟩
  have stepped : frameClockMachine.step
      { run with window := { run.window with driver := armedHost frames last } }
      ([], .requestFrame (frames + 1) ⟨true, true⟩) = some { run with
        window := WaylandWindow.requestFrame { run.window with driver := armedHost frames last }
          (frames + 1) ⟨true, true⟩ } := rfl
  exact ⟨_, told.step (timely_other _ fun _ _ => FrameClockCall.noConfusion) stepped, rfl,
    idle.requests rfl (frames + 1) room⟩

/-- The callback pulses the host under the armed generation. -/
theorem frame_answered
    (waiting : run.window.Waiting generation (frames + 1) (armedHost frames last))
    (nonzero : generation ≠ 0) (time : Nat) :
    ∃ next timestamp, frameClockMachine.step run ([], .done time ⟨true, true⟩) = some next ∧
      next.callbacks = run.callbacks ++ [time] ∧
      (∃ pulse, next.pulses = run.pulses ++ [pulse] ∧ pulse.outcome =
        ((armedHost frames last).state.framePulseLocked timestamp (frames + 1)).1) ∧
      next.window.Idle (generation + 1)
        ((armedHost frames last).framePulse timestamp (frames + 1)) := by
  obtain ⟨⟨driver, running, surface, frame, hostGeneration, clock⟩, callbacks, pulses⟩ := run
  obtain ⟨timestamp, next, handled, idle⟩ := waiting.answered nonzero (UInt32.ofNat time)
  obtain ⟨rfl, rfl, rfl, rfl⟩ := waiting
  have stepped : frameClockMachine.step
      ⟨⟨armedHost frames last, true, waitingSurface generation, some ⟨generation, frames + 1⟩,
        hostGeneration, clock⟩, callbacks, pulses⟩ ([], .done time ⟨true, true⟩) =
      some ⟨next, callbacks ++ [time], pulses ++ [⟨time, timestamp,
        ((armedHost frames last).state.framePulseLocked timestamp (frames + 1)).1⟩]⟩ := by
    change FrameClockRun.done ⟨⟨armedHost frames last, true, waitingSurface generation,
      some ⟨generation, frames + 1⟩, hostGeneration, clock⟩, callbacks, pulses⟩ time _ = _
    rw [FrameClockRun.done, Option.map_some, handled]
  exact ⟨_, timestamp, stepped, rfl, ⟨_, rfl, rfl⟩, idle⟩

/-- A callback in time comes to a frame, and the window rests again. -/
theorem frame_shown (reached : Reaches frameClockMachine Timely run)
    (idle : run.window.Idle generation (restingHost frames last))
    (left : frames < maxGeneration - 1) (room : generation ≠ maxCounter)
    (nonzero : generation ≠ 0) {time : Nat} (timely : ∀ next : FrameClockRun,
      next.callbacks = run.callbacks → next.Timely ([], .done time ⟨true, true⟩)) :
    ∃ next, Reaches frameClockMachine Timely next ∧ next.callbacks = run.callbacks ++ [time] ∧
      ∃ timestamp, next.window.Idle (generation + 1)
        (restingHost (frames + 1) (some timestamp)) := by
  obtain ⟨waiting, reached, called, waits⟩ := frame_requested reached idle (by omega) room
  obtain ⟨next, timestamp, stepped, came, ⟨pulse, pulses, outcome⟩, rests⟩ :=
    frame_answered waits nonzero time
  have reached := reached.step (timely waiting called) stepped
  -- the timestamps of a run in time go on, so the host takes this one
  have accepted := (Exact.of_timely reached).accepted pulse (by rw [pulses]; simp)
  rw [outcome] at accepted
  obtain ⟨request, pulsed⟩ := Host.armed_pulsed left accepted
  obtain ⟨running, frame, surface, driver⟩ := rests
  rw [pulsed] at driver
  have told := host_reached reached .runUi rfl (by rw [driver]; rfl)
    (by rw [driver]; exact Host.pulsed_told request)
  have delivered := host_reached told .runUi rfl rfl Host.told_rests
  exact ⟨_, delivered, came.trans (by rw [called]), timestamp, running, frame, surface, rfl⟩

end FrameClockRun

/-- A window of one pixel that was just created. -/
def newWindow : FrameClockRun where
  window := {
    driver := restingHost 0 none
    surfaceState := { desiredExtent := ⟨1, 1⟩, appliedExtent := ⟨1, 1⟩ } }

theorem new_window_initial : frameClockMachine.init newWindow := by
  refine ⟨_, ⟨1, 1⟩, false, _, ⟨1, ⟨1, 1⟩, 1, 1, 1, true, (restingHost 0 none).state, ?_, rfl⟩, rfl,
    rfl⟩
  have valid : WindowMetrics.valid ⟨⟨1, 1⟩, 1, 1, 1, 1⟩ = true := by decide +kernel
  simp [createHostWindow, valid, restingHost]

/-- The window after its first configure. -/
theorem configured_reached : ∃ run, Reaches frameClockMachine FrameClockRun.Timely run ∧
    run.callbacks = [] ∧ run.window.Idle 2 (restingHost 0 none) := by
  have started : Reaches frameClockMachine FrameClockRun.Timely newWindow :=
    .start new_window_initial
  have first := started.step (FrameClockRun.timely_other ([], .beginInitialCommit)
    fun _ _ => FrameClockCall.noConfusion) rfl
  have second := first.step (FrameClockRun.timely_other ([], .surfaceConfigure 1 ⟨true, true⟩)
    fun _ _ => FrameClockCall.noConfusion) rfl
  exact ⟨_, second, rfl, rfl, rfl, rfl, Host.set_metrics_same rfl⟩

/-- Callbacks can come at any times that are in time. -/
theorem callbacks_reached (times : List Nat) (short : times.length < 2 ^ 32)
    (timely : ∀ (run : FrameClockRun) time rest, times = run.callbacks ++ time :: rest →
      run.Timely ([], .done time ⟨true, true⟩)) :
    ∃ run last, Reaches frameClockMachine FrameClockRun.Timely run ∧ run.callbacks = times ∧
      run.window.Idle (UInt64.ofNat (times.length + 2)) (restingHost times.length last) := by
  have upTo (count : Nat) (within : count ≤ times.length) :
      ∃ run last, Reaches frameClockMachine FrameClockRun.Timely run ∧
        run.callbacks = times.take count ∧
        run.window.Idle (UInt64.ofNat (count + 2)) (restingHost count last) := by
    induction count with
    | zero =>
      obtain ⟨run, reached, called, idle⟩ := configured_reached
      exact ⟨run, none, reached, called, idle⟩
    | succ count ih =>
      obtain ⟨run, last, reached, called, idle⟩ := ih (by omega)
      have value : (UInt64.ofNat (count + 2)).toNat = count + 2 := by
        rw [UInt64.toNat_ofNat']
        omega
      have room : UInt64.ofNat (count + 2) ≠ maxCounter := by
        intro full
        have full := congrArg UInt64.toNat full
        rw [value] at full
        simp only [maxCounter, UInt64.reduceToNat] at full
        omega
      have nonzero : UInt64.ofNat (count + 2) ≠ 0 := by
        intro zero
        have zero := congrArg UInt64.toNat zero
        rw [value] at zero
        simp at zero
      have after : UInt64.ofNat (count + 2) + 1 = UInt64.ofNat (count + 1 + 2) := by
        apply UInt64.toNat_inj.mp
        rw [UInt64.toNat_add, value, UInt64.toNat_ofNat']
        rfl
      have here : times.take count ++ times[count] :: times.drop (count + 1) = times := by
        rw [List.getElem_cons_drop, List.take_append_drop]
      have left : count < maxGeneration - 1 := by
        unfold maxGeneration
        omega
      obtain ⟨next, reached, longer, timestamp, idle⟩ :=
        FrameClockRun.frame_shown reached idle left room nonzero fun next same =>
          timely next times[count] _ (by rw [same, called, here])
      refine ⟨next, some timestamp, reached, ?_, after ▸ idle⟩
      rw [longer, called, List.take_append_getElem]
  obtain ⟨run, last, reached, called, idle⟩ := upTo times.length le_rfl
  exact ⟨run, last, reached, by rw [called, List.take_length], idle⟩

/-- Three callbacks around a wrap of the stamps. -/
theorem frame_clock_exact_wrapped :
    ∃ run : FrameClockRun, run.callbacks = [4294966796, 4294967796, 4294968296] ∧
      run.pulses.map FramePulse.time = run.callbacks ∧
      run.pulses.Pairwise FramePulse.Apart ∧
      ∀ pulse ∈ run.pulses, pulse.outcome ≠ .invalidTimestamp := by
  have timely : ∀ (run : FrameClockRun) time rest,
      [4294966796, 4294967796, 4294968296] = run.callbacks ++ time :: rest →
        run.Timely ([], .done time ⟨true, true⟩) := by
    intro run time rest split
    have splits : (run.callbacks = [] ∧ time = 4294966796) ∨
        (run.callbacks = [4294966796] ∧ time = 4294967796) ∨
        (run.callbacks = [4294966796, 4294967796] ∧ time = 4294968296) := by
      match front : run.callbacks with
      | [] => simp_all
      | [_] => simp_all
      | [_, _] => simp_all
      | _ :: _ :: _ :: _ => simp [front] at split
    constructor
    · intro time resources called last latest
      cases called
      obtain ⟨front, rfl⟩ | ⟨front, rfl⟩ | ⟨front, rfl⟩ := splits
      · simp [front] at latest
      · obtain rfl : 4294966796 = last := by simpa [front] using latest
        decide
      · obtain rfl : 4294967796 = last := by simpa [front] using latest
        decide
    · intro time resources called
      cases called
      obtain ⟨front, rfl⟩ | ⟨front, rfl⟩ | ⟨front, rfl⟩ := splits
      · rw [front]
        decide
      · rw [front]
        decide
      · rw [front]
        decide
  obtain ⟨run, _, reached, called, _⟩ := callbacks_reached _ (by decide) timely
  exact ⟨run, called, frame_clock_exact reached⟩

/-- Callbacks every `2^31 - 1` milliseconds, as long as the nanoseconds fit. -/
def longTimes : List Nat := (List.range 4295).map (· * 2147483647)

theorem long_times_length : longTimes.length = 4295 := by simp [longTimes]

theorem long_times_entry {index time : Nat} (found : longTimes[index]? = some time) :
    time = index * 2147483647 := by
  obtain ⟨_, entry⟩ := List.getElem?_eq_some_iff.mp found
  rw [← entry]
  simp [longTimes]

/-- The last of the callbacks so far. -/
theorem long_times_latest {front rest : List Nat} {last : Nat} (split : longTimes = front ++ rest)
    (latest : last ∈ front.getLast?) : last = (front.length - 1) * 2147483647 := by
  obtain ⟨before, rfl⟩ := List.getLast?_eq_some_iff.mp latest
  rw [List.length_append, List.length_singleton, Nat.add_sub_cancel]
  exact long_times_entry (by simp [split])

theorem long_times_timely {run : FrameClockRun} {time : Nat} {rest : List Nat}
    (split : longTimes = run.callbacks ++ time :: rest) :
    run.Timely ([], .done time ⟨true, true⟩) := by
  have now : time = run.callbacks.length * 2147483647 := long_times_entry (by simp [split])
  have within : run.callbacks.length < 4295 := by
    have total := congrArg List.length split
    rw [long_times_length, List.length_append, List.length_cons] at total
    omega
  constructor
  · intro time resources called last latest
    cases called
    have earlier := long_times_latest split latest
    have positive : 0 < run.callbacks.length := by
      cases front : run.callbacks with
      | nil => simp [front] at latest
      | cons first front => exact Nat.succ_pos _
    omega
  · intro time resources called first
    cases called
    omega

/-- One callback more, and the nanoseconds have left their type. -/
theorem nanoseconds_overflow :
    ¬ ∀ run, Reaches frameClockMachine FrameClockRun.Spaced run →
      run.pulses.Pairwise FramePulse.Apart := by
  intro all
  obtain ⟨run, last, timely, called, idle⟩ := callbacks_reached longTimes
    (by rw [long_times_length]; decide) fun _ _ _ => long_times_timely
  rw [long_times_length] at idle
  obtain ⟨waiting, timely, same, waits⟩ :=
    FrameClockRun.frame_requested timely idle (by decide) (by decide)
  obtain ⟨next, timestamp, answered, longer, -, -⟩ :=
    FrameClockRun.frame_answered waits (by decide) (4295 * 2147483647)
  have spaced : waiting.Spaced ([], .done (4295 * 2147483647) ⟨true, true⟩) := by
    intro time resources done last latest
    cases done
    rw [same, called] at latest
    have earlier := long_times_latest (List.append_nil _).symm latest
    rw [long_times_length] at earlier
    omega
  have reached := (timely.mono fun _ _ => And.left).step spaced answered
  have sound := FrameClockRun.Sound.of_spaced reached
  have timed : next.pulses.map FramePulse.time = (List.range 4296).map (· * 2147483647) := by
    rw [sound.timed, longer, same, called, List.range_succ, List.map_append]
    rfl
  have length : next.pulses.length = 4296 := by
    rw [← List.length_map FramePulse.time, timed, List.length_map, List.length_range]
  have entry (index : Nat) (within : index < next.pulses.length) :
      next.pulses[index].time = index * 2147483647 := by
    have found : (next.pulses.map FramePulse.time)[index]? = some next.pulses[index].time := by
      simp [within]
    rw [timed] at found
    obtain ⟨_, entry⟩ := List.getElem?_eq_some_iff.mp found
    rw [← entry]
    simp
  have era : next.era = 0 := by
    rw [FrameClockRun.era, longer, same, called, longTimes, List.range_succ_eq_map]
    rfl
  have stamp (index : Nat) (within : index < next.pulses.length) :
      next.pulses[index].timestamp = toNanoseconds (UInt64.ofNat (index * 2147483647)) := by
    rw [sound.stamped _ (List.getElem_mem within), era, entry index within, Nat.zero_mul,
      Nat.sub_zero]
  have apart := List.pairwise_iff_getElem.mp (all next reached) 0 4295 (by omega) (by omega)
    (by omega)
  have back := apart.1
  rw [stamp, stamp] at back
  exact absurd back (by decide +kernel)

end Dui
