import Dui.HostFrame

/-! What frame scheduling keeps over every run: demand is never parked while the
window could show a frame, and the request the control holds is the current one
unless an overtaken request was posted behind it. -/
namespace Dui
open HostWindowState Transition FrameSystem

/-- The frame fields fit together. A sequence number is spent only on a generation
that was armed for it. -/
structure FrameState.Coherent (frame : FrameState) (usable : Bool) : Prop where
  bounded : frame.generation ≤ maxGeneration
  armed_usable : frame.armed = true → usable = true
  exclusive : frame.armed = true → frame.delivering = false
  sequence : frame.nextSequence ≤ frame.generation + 1
  armed_sequence : frame.armed = true → frame.nextSequence ≤ frame.generation

/-- Demand is answered as long as there are generations left. -/
def FrameState.Served (frame : FrameState) (usable : Bool) : Prop :=
  frame.demand = true → usable = true →
    frame.armed = true ∨ frame.delivering = true ∨ frame.generation = maxGeneration

namespace FrameState
variable {frame : FrameState} {usable : Bool}

/-- Arming does nothing, finds no generation left, or takes the next one. -/
theorem arm_cases (frame : FrameState) (usable : Bool) :
    ((usable = false ∨ frame.armed = true ∨ frame.delivering = true ∨ frame.demand = false) ∧
      frame.arm usable = (none, frame)) ∨
    (frame.generation = maxGeneration ∧ frame.armed = false ∧
      frame.arm usable = (none, { frame with generationExhausted := true })) ∨
    (usable = true ∧ frame.armed = false ∧ frame.delivering = false ∧
      frame.generation ≠ maxGeneration ∧ frame.arm usable = (some (frame.generation + 1),
        { frame with generation := frame.generation + 1, armed := true })) := by
  unfold arm
  split
  · rename_i refused
    exact Or.inl ⟨by simpa using refused, rfl⟩
  · rename_i wanted
    simp only [not_or, Bool.not_eq_true, Bool.not_eq_false] at wanted
    split
    · rename_i exhausted
      exact Or.inr (Or.inl ⟨exhausted, wanted.2.1, rfl⟩)
    · rename_i left
      exact Or.inr (Or.inr ⟨wanted.1, wanted.2.1, wanted.2.2.1, left, rfl⟩)

theorem Coherent.arm (coherent : frame.Coherent usable) :
    (frame.arm usable).2.Coherent usable := by
  obtain ⟨_, same⟩ | ⟨_, _, same⟩ | ⟨able, _, idle, left, same⟩ := arm_cases frame usable
  · rw [same]
    exact coherent
  · rw [same]
    exact ⟨coherent.bounded, coherent.armed_usable, coherent.exclusive, coherent.sequence,
      coherent.armed_sequence⟩
  · rw [same]
    have bounded := coherent.bounded
    have sequence := coherent.sequence
    refine ⟨?_, fun _ => able, fun _ => idle, ?_, fun _ => sequence⟩
    · show frame.generation + 1 ≤ maxGeneration
      omega
    · show frame.nextSequence ≤ frame.generation + 1 + 1
      omega

/-- After arming, demand is served. -/
theorem arm_served (frame : FrameState) (usable : Bool) : (frame.arm usable).2.Served usable := by
  obtain ⟨refused, same⟩ | ⟨none_left, _, same⟩ | ⟨_, _, _, _, same⟩ := arm_cases frame usable
  · rw [same]
    intro demand able
    rcases refused with unable | armed | delivering | undemanded
    · rw [unable] at able
      cases able
    · exact Or.inl armed
    · exact Or.inr (Or.inl delivering)
    · rw [undemanded] at demand
      cases demand
  · rw [same]
    exact fun _ _ => Or.inr (Or.inr none_left)
  · rw [same]
    exact fun _ _ => Or.inl rfl

/-- Invalidation gives up what was armed and moves on to an unused generation. -/
theorem invalidate_spec (frame : FrameState) :
    frame.invalidate.armed = false ∧ frame.invalidate.delivering = frame.delivering ∧
      frame.invalidate.nextSequence = frame.nextSequence ∧
      (frame.armed = true → frame.invalidate.demand = true) ∧
      frame.generation ≤ frame.invalidate.generation ∧
      (frame.generation ≤ maxGeneration → frame.invalidate.generation ≤ maxGeneration) := by
  obtain ⟨demand, armed, delivering, exhausted, generation, nextSequence, lastTimestamp⟩ := frame
  unfold invalidate
  by_cases left : generation = maxGeneration
  · cases armed <;> cases delivering <;> simp [left]
  · cases armed <;> cases delivering <;> simp [left] <;> omega

theorem Coherent.invalidate (coherent : frame.Coherent usable) (other : Bool) :
    frame.invalidate.Coherent other := by
  obtain ⟨armed, _, sequence, _, later, bounded⟩ := invalidate_spec frame
  refine ⟨bounded coherent.bounded, ?_, ?_, ?_, ?_⟩
  · simp [armed]
  · simp [armed]
  · rw [sequence]
    have := coherent.sequence
    omega
  · simp [armed]

theorem Coherent.stop (coherent : frame.Coherent usable) (other : Bool) :
    frame.stop.Coherent other := by
  have bounded := coherent.bounded
  have sequence := coherent.sequence
  refine ⟨?_, by simp [FrameState.stop], by simp [FrameState.stop], ?_, by simp [FrameState.stop]⟩
  · show (if frame.generation ≠ maxGeneration then frame.generation + 1 else frame.generation) ≤ _
    split <;> omega
  · show frame.nextSequence ≤
      (if frame.generation ≠ maxGeneration then frame.generation + 1 else frame.generation) + 1
    split <;> omega

theorem arm_generation {frame : FrameState} {usable : Bool} (unarmed : frame.armed = false) :
    ((frame.arm usable).2.armed = true →
      (frame.arm usable).1 = some (frame.arm usable).2.generation) ∧
    ((frame.arm usable).1.isSome = true → (frame.arm usable).2.armed = true) := by
  obtain ⟨_, same⟩ | ⟨_, _, same⟩ | ⟨_, _, _, _, same⟩ := arm_cases frame usable <;>
    simp [same, unarmed]

end FrameState

/-- A window's frame fields are coherent and its demand is served. -/
structure HostWindowState.FrameSound (host : HostWindowState) : Prop where
  coherent : host.frame.Coherent host.usable
  served : host.frame.Served host.usable

namespace HostWindowState
variable {host : HostWindowState}

theorem FrameSound.arm (coherent : host.frame.Coherent host.usable) :
    host.armFrameLocked.2.FrameSound :=
  ⟨coherent.arm, FrameState.arm_served _ _⟩

/-- Nothing is demanded of a window that cannot show a frame. -/
theorem FrameSound.unusable (coherent : host.frame.Coherent host.usable)
    (unusable : host.usable = false) : host.FrameSound :=
  ⟨coherent, fun _ able => by
    rw [unusable] at able
    cases able⟩

theorem FrameSound.stopLocked (sound : host.FrameSound) : host.stopLocked.FrameSound :=
  .unusable (sound.coherent.stop _) rfl

theorem FrameSound.requestFrame {generation : Option Nat} {next : HostWindowState}
    (sound : host.FrameSound) (requested : host.requestFrameLocked = some (generation, next)) :
    next.FrameSound := by
  unfold requestFrameLocked at requested
  split at requested <;> cases requested
  have coherent := sound.coherent
  exact .arm ⟨coherent.bounded, coherent.armed_usable, coherent.exclusive, coherent.sequence,
    coherent.armed_sequence⟩

theorem FrameSound.frameDelivered (sound : host.FrameSound) :
    host.frameDeliveredLocked.2.FrameSound := by
  have coherent := sound.coherent
  exact .arm ⟨coherent.bounded, coherent.armed_usable, fun _ => rfl, coherent.sequence,
    coherent.armed_sequence⟩

theorem FrameSound.setMetrics (sound : host.FrameSound) (logicalSize : Size)
    (physicalWidth physicalHeight : Nat) (devicePixelRatio : ℚ) :
    (host.setMetricsLocked logicalSize physicalWidth physicalHeight
      devicePixelRatio).2.FrameSound := by
  obtain ⟨outcome, _, done⟩ | ⟨metrics, _, _, done⟩ := set_metrics_cases host logicalSize
    physicalWidth physicalHeight devicePixelRatio
  · rw [done]
    exact sound
  · rw [done]
    exact .arm (sound.coherent.invalidate _)

theorem FrameSound.setVisible {visible : Bool} {outcome : SetVisibleOutcome}
    {next : HostWindowState} (sound : host.FrameSound)
    (moved : host.setVisibleLocked visible = some (outcome, next)) : next.FrameSound := by
  obtain done | ⟨rfl, _, hidden, done⟩ | ⟨rfl, _, done⟩ := set_visible_cases host visible
  · rw [done] at moved
    cases moved
  · rw [done] at moved
    cases moved
    have coherent := sound.coherent
    have unarmed : host.frame.armed = true → False := fun armed => by
      have able := coherent.armed_usable armed
      simp [usable, hidden] at able
    exact .arm ⟨coherent.bounded, fun armed => (unarmed armed).elim, coherent.exclusive,
      coherent.sequence, coherent.armed_sequence⟩
  · rw [done] at moved
    cases moved
    exact .unusable (sound.coherent.invalidate _) (by simp [usable, invalidateFrameLocked])

theorem FrameSound.setSurfaceState (sound : host.FrameSound) (surface : HostSurfaceState) :
    (host.setSurfaceStateLocked surface).2.FrameSound := by
  obtain ⟨outcome, _, done⟩ | ⟨metrics, _, _, ⟨away, done⟩ | ⟨rfl, away, done⟩⟩ :=
    set_surface_state_cases host surface
  · rw [done]
    exact sound
  · rw [done]
    exact .unusable (sound.coherent.invalidate _) (by simp [usable, invalidateFrameLocked, away])
  · rw [done]
    have coherent := sound.coherent
    have unarmed : host.frame.armed = true → False := fun armed => by
      have able := coherent.armed_usable armed
      simp [usable, away] at able
    exact .arm ⟨coherent.bounded, fun armed => (unarmed armed).elim, coherent.exclusive,
      coherent.sequence, coherent.armed_sequence⟩

theorem FrameSound.framePulse (sound : host.FrameSound) (timestamp : Int) (generation : Nat) :
    (host.framePulseLocked timestamp generation).2.FrameSound := by
  have coherent := sound.coherent
  obtain ⟨outcome, _, done⟩ | ⟨spent, _, armed, _, done⟩ | ⟨_, _, armed, _, done⟩ :=
    frame_pulse_cases host timestamp generation
  · rw [done]
    exact sound
  · -- A spent sequence means a spent generation.
    rw [done]
    have used := coherent.armed_sequence armed
    have bounded := coherent.bounded
    refine ⟨⟨bounded, by simp, by simp, coherent.sequence, by simp⟩, fun _ _ => ?_⟩
    exact Or.inr (Or.inr (by show host.frame.generation = _; omega))
  · rw [done]
    have used := coherent.armed_sequence armed
    refine ⟨⟨coherent.bounded, by simp, by simp, ?_, by simp⟩, fun demand => by cases demand⟩
    show host.frame.nextSequence + 1 ≤ host.frame.generation + 1
    omega

end HostWindowState

namespace FrameSystem
variable {system next : FrameSystem}

theorem run_work_sound (sound : system.host.FrameSound) (work : FrameWork) :
    (system.runWork work).1.host.FrameSound := by
  cases work with
  | checkExhausted =>
    simp only [runWork]
    split
    · have coherent := sound.coherent
      have cleared : system.host.frameGenerationExhaustedLocked.2.FrameSound :=
        ⟨⟨coherent.bounded, coherent.armed_usable, coherent.exclusive, coherent.sequence,
          coherent.armed_sequence⟩, sound.served⟩
      exact cleared.stopLocked
    · exact sound
  | shutdown => exact sound.stopLocked
  | _ => exact sound

/-- Every step keeps the frame fields coherent and the demand served. -/
theorem step_sound (sound : system.host.FrameSound) {action : Action}
    (stepped : system.step action = some next) : next.host.FrameSound := by
  cases action with
  | requestFrame =>
    simp only [step, Option.ite_none_right_eq_some] at stepped
    obtain ⟨_, stepped⟩ := stepped
    cases stepped
    unfold requestFrame
    split
    · exact sound
    · exact sound.requestFrame ‹_›
  | beginFrame =>
    simp only [step] at stepped
    split at stepped
    · cases stepped
    · simp only [Option.ite_none_right_eq_some] at stepped
      obtain ⟨_, stepped⟩ := stepped
      cases stepped
      exact sound
  | finishFrame =>
    simp only [step, Option.ite_none_right_eq_some] at stepped
    obtain ⟨_, stepped⟩ := stepped
    cases stepped
    exact sound.frameDelivered
  | continueUi =>
    simp only [step] at stepped
    split at stepped
    · cases stepped
    · cases stepped
      exact run_work_sound sound _
  | setMetrics logicalSize physicalWidth physicalHeight devicePixelRatio =>
    simp only [step, Option.ite_none_right_eq_some] at stepped
    obtain ⟨_, stepped⟩ := stepped
    cases stepped
    have kept := sound.setMetrics logicalSize physicalWidth physicalHeight devicePixelRatio
    unfold setMetrics
    split
    · rename_i control host changed
      rw [changed] at kept
      exact kept
    · exact sound
  | setVisible visible =>
    simp only [step, Option.ite_none_right_eq_some] at stepped
    obtain ⟨_, stepped⟩ := stepped
    cases stepped
    unfold setVisible
    split
    · exact sound
    · exact sound.setVisible ‹_›
  | setSurfaceState surface =>
    simp only [step, Option.ite_none_right_eq_some] at stepped
    obtain ⟨_, stepped⟩ := stepped
    cases stepped
    have kept := sound.setSurfaceState surface
    unfold setSurfaceState
    split
    · exact sound
    · split
      · exact sound
      · rename_i host changed
        rw [changed] at kept
        exact kept
      · rename_i metricsChanged control host changed
        rw [changed] at kept
        exact kept
  | framePulse timestamp generation =>
    simp only [step, Option.ite_none_right_eq_some] at stepped
    obtain ⟨_, stepped⟩ := stepped
    cases stepped
    have kept := sound.framePulse timestamp generation
    unfold framePulse
    split
    · rename_i request host pulsed
      rw [pulsed] at kept
      exact kept
    · rename_i host pulsed
      rw [pulsed] at kept
      exact kept
    · exact sound
  | runControl =>
    simp only [step] at stepped
    split at stepped
    · cases stepped
    · simp only [Option.ite_none_right_eq_some] at stepped
      obtain ⟨_, stepped⟩ := stepped
      cases stepped
      exact sound
  | continuePlatform =>
    simp only [step] at stepped
    split at stepped
    · cases stepped
    · cases stepped
      exact run_work_sound sound _

end FrameSystem

theorem init_sound {system : FrameSystem} (initial : frameMachine.init system) :
    system.host.FrameSound ∧ system.uiWork = [] ∧ system.platformWork = [] ∧
      system.host.frame.armed = false := by
  obtain ⟨id, size, width, height, ratio, visible, host, created, rfl⟩ := initial
  have fresh : host.frame = {} := by
    simp only [createHostWindow] at created
    split at created
    · cases created
    · split at created
      · cases created
      · cases created
        rfl
  refine ⟨⟨?_, ?_⟩, rfl, rfl, by rw [fresh]⟩
  · rw [fresh]
    exact ⟨by decide, by simp, by simp, by simp, by simp⟩
  · rw [fresh]
    exact fun demand => by cases demand

/-- The frame-control posts a thread still has to make. -/
def controls (work : List FrameWork) : List FrameControl :=
  work.filterMap fun work => match work with
    | .postControl control => some control
    | _ => none

theorem controls_append (first second : List FrameWork) :
    controls (first ++ second) = controls first ++ controls second :=
  List.filterMap_append

/-- The token once the queued tasks have run. -/
def eventualToken (token : Option Nat) (queue : List FrameControl) : Option Nat :=
  queue.foldl (fun token control => control.apply token) token

/-- The request that a thread is about to post has not been overtaken: it is the
current one, or nothing is armed, or the platform thread has its own post to make. -/
def FrameSystem.postsCurrent (system : FrameSystem) (action : FrameSystem.Action) : Bool :=
  match action, system.uiWork with
  | .continueUi, .postControl control :: _ =>
    !system.host.frame.armed || control.generation == some system.host.frame.generation ||
      !(controls system.platformWork).isEmpty
  | _, _ => true

/-- The current generation of an armed window is on its way to the control, or is
what the control will hold. -/
structure FrameSystem.Tracked (system : FrameSystem) : Prop where
  ui : controls system.uiWork = [] ∨
    ∃ generation, controls system.uiWork = [⟨false, some generation⟩]
  blocked : controls system.platformWork ≠ [] → system.host.frame.armed = true ∨
    system.host.usable = false ∨ system.host.frame.generation = maxGeneration
  current : system.host.frame.armed = true →
    (controls system.uiWork = [⟨false, some system.host.frame.generation⟩] ∧
      controls system.platformWork = []) ∨
    (∃ cancel, controls system.platformWork =
      [⟨cancel, some system.host.frame.generation⟩]) ∨
    (controls system.platformWork = [] ∧
      eventualToken system.token system.platformQueue = some system.host.frame.generation)

namespace FrameSystem
variable {system next : FrameSystem}

private theorem control_work_controls (control : FrameControl) :
    controls (controlWork control) =
      if ¬ control.cancel ∧ control.generation.isNone then [] else [control] := by
  unfold controlWork
  split <;> rfl

/-- A section of the UI thread, which may arm the frame. -/
theorem Tracked.ui_section (frame : FrameState) {host : HostWindowState} {work : List FrameWork}
    {inFrame : Option FrameRequest} (tracked : system.Tracked) (idle : system.uiWork = [])
    (armed : frame.armed = system.host.frame.armed)
    (generation : frame.generation = system.host.frame.generation)
    (usable : host.usable = system.host.usable)
    (arms : host.frame = (frame.arm system.host.usable).2)
    (worked : controls work = controls (controlWork ⟨false, (frame.arm system.host.usable).1⟩)) :
    Tracked { system with host, uiWork := work, inFrame } := by
  have unposted : controls system.uiWork = [] := by
    rw [idle]
    rfl
  rw [control_work_controls] at worked
  by_cases took : (frame.arm system.host.usable).1 = none
  · -- Nothing was armed: the window and the other thread are as before.
    have same : host.frame.armed = system.host.frame.armed ∧
        host.frame.generation = system.host.frame.generation := by
      obtain ⟨_, done⟩ | ⟨_, _, done⟩ | ⟨_, _, _, _, done⟩ :=
        FrameState.arm_cases frame system.host.usable
      · rw [arms, done]
        exact ⟨armed, generation⟩
      · rw [arms, done]
        exact ⟨armed, generation⟩
      · rw [done] at took
        cases took
    rw [took, if_pos (by simp)] at worked
    refine ⟨Or.inl worked, ?_, ?_⟩
    · intro posted
      rw [same.1, same.2, usable]
      exact tracked.blocked posted
    · intro still
      rw [same.1] at still
      rw [same.2]
      obtain ⟨posting, _⟩ | later := tracked.current still
      · rw [unposted] at posting
        cases posting
      · exact Or.inr later
  · obtain ⟨_, done⟩ | ⟨_, _, done⟩ | ⟨able, unarmed, _, left, done⟩ :=
      FrameState.arm_cases frame system.host.usable
    · rw [done] at took
      exact absurd rfl took
    · rw [done] at took
      exact absurd rfl took
    · -- The other thread has no control to post, or arming would have been blocked.
      rw [done] at arms worked
      rw [if_neg (by simp)] at worked
      have quiet : controls system.platformWork = [] := by
        by_contra posted
        rcases tracked.blocked posted with held | unable | spent
        · rw [← armed, unarmed] at held
          cases held
        · rw [unable] at able
          cases able
        · exact left (generation.trans spent)
      refine ⟨Or.inr ⟨_, worked⟩, fun posted => absurd quiet posted, fun _ => Or.inl ⟨?_, quiet⟩⟩
      rw [worked, arms]

/-- A section of the platform thread, with the control it has to post. -/
theorem Tracked.platform_section {host : HostWindowState} {work : List FrameWork}
    {control : FrameControl} (tracked : system.Tracked)
    (worked : controls work = controls (controlWork control))
    (carried : host.frame.armed = true → control.generation = some host.frame.generation)
    (blocked : control.cancel = true ∨ control.generation.isSome = true →
      host.frame.armed = true ∨ host.usable = false ∨ host.frame.generation = maxGeneration) :
    Tracked { system with host, platformWork := work } := by
  rw [control_work_controls] at worked
  refine ⟨tracked.ui, ?_, ?_⟩
  · intro posted
    refine blocked ?_
    by_contra neither
    rw [not_or] at neither
    exact posted (worked.trans (if_pos (by simpa using neither)))
  · intro armed
    have generation := carried armed
    rw [if_neg (by simp [generation])] at worked
    exact Or.inr (Or.inl ⟨control.cancel, by rw [worked, ← generation]⟩)

/-- A thread that shuts the window down leaves nothing armed. -/
theorem Tracked.stopped {host : HostWindowState} {uiWork platformWork : List FrameWork}
    (unarmed : host.frame.armed = false) (unusable : host.usable = false)
    (ui : controls uiWork = [] ∨ ∃ generation, controls uiWork = [⟨false, some generation⟩]) :
    Tracked { system with host, uiWork, platformWork } := by
  refine ⟨ui, fun _ => Or.inr (Or.inl unusable), fun armed => ?_⟩
  rw [show host.frame.armed = true from armed] at unarmed
  cases unarmed

theorem eventual_token_append (token : Option Nat) (queue : List FrameControl)
    (control : FrameControl) :
    eventualToken token (queue ++ [control]) = control.apply (eventualToken token queue) := by
  simp [eventualToken]

theorem Tracked.continue_ui {work : FrameWork} {rest : List FrameWork} (tracked : system.Tracked)
    (working : system.uiWork = work :: rest) (posts : system.postsCurrent .continueUi = true) :
    Tracked { (system.runWork work).1 with
      uiWork := if (system.runWork work).2 then rest else [] } := by
  have ui := tracked.ui
  rw [working] at ui
  cases work with
  | postControl control =>
    have single : controls rest = [] ∧ ∃ generation, control = ⟨false, some generation⟩ := by
      rcases ui with empty | ⟨generation, single⟩
      · cases empty
      · obtain ⟨same, rest⟩ := List.cons.inj single
        exact ⟨rest, generation, same⟩
    obtain ⟨empty, generation, rfl⟩ := single
    refine ⟨Or.inl empty, tracked.blocked, fun armed => ?_⟩
    obtain ⟨posting, quiet⟩ | later | ⟨quiet, held⟩ := tracked.current armed
    · rw [working] at posting
      have own := (List.cons.inj posting).1
      refine Or.inr (Or.inr ⟨quiet, (eventual_token_append _ _ _).trans ?_⟩)
      rw [own]
      rfl
    · exact Or.inr (Or.inl later)
    · have unheld : system.host.frame.armed = true := armed
      have own : generation = system.host.frame.generation := by
        simpa [postsCurrent, working, unheld, quiet] using posts
      refine Or.inr (Or.inr ⟨quiet, (eventual_token_append _ _ _).trans ?_⟩)
      rw [own]
      rfl
  | checkExhausted =>
    simp only [runWork]
    split
    · exact .stopped rfl rfl (Or.inl rfl)
    · refine ⟨ui, tracked.blocked, fun armed => ?_⟩
      have current := tracked.current armed
      rwa [working] at current
  | shutdown => exact .stopped rfl rfl (Or.inl rfl)
  | postDelegate =>
    refine ⟨ui, tracked.blocked, fun armed => ?_⟩
    have current := tracked.current armed
    rwa [working] at current
  | postFrame request =>
    refine ⟨ui, tracked.blocked, fun armed => ?_⟩
    have current := tracked.current armed
    rwa [working] at current

theorem Tracked.continue_platform {work : FrameWork} {rest : List FrameWork}
    (tracked : system.Tracked) (working : system.platformWork = work :: rest) :
    Tracked { (system.runWork work).1 with
      platformWork := if (system.runWork work).2 then rest else [] } := by
  have blocked := tracked.blocked
  rw [working] at blocked
  have quiet_work (silent : controls (work :: rest) = controls rest) :
      Tracked { system with platformWork := rest } := by
    refine ⟨tracked.ui, fun posted => blocked (by rwa [silent]), fun armed => ?_⟩
    have current := tracked.current armed
    rwa [working, silent] at current
  cases work with
  | postControl control =>
    refine ⟨tracked.ui, fun _ => blocked (by simp [controls]), fun armed => ?_⟩
    obtain ⟨_, quiet⟩ | ⟨cancel, single⟩ | ⟨quiet, _⟩ := tracked.current armed
    · rw [working] at quiet
      cases quiet
    · rw [working] at single
      obtain ⟨same, empty⟩ := List.cons.inj single
      refine Or.inr (Or.inr ⟨empty, (eventual_token_append _ _ _).trans ?_⟩)
      rw [same]
      rfl
    · rw [working] at quiet
      cases quiet
  | checkExhausted =>
    simp only [runWork]
    split
    · exact .stopped rfl rfl tracked.ui
    · exact quiet_work rfl
  | shutdown => exact .stopped rfl rfl tracked.ui
  | postDelegate => exact quiet_work rfl
  | postFrame request =>
    have quiet := quiet_work rfl
    exact ⟨quiet.ui, quiet.blocked, quiet.current⟩

private theorem driver_controls (control : FrameControl) :
    controls (.postDelegate :: controlWork control ++ [.checkExhausted]) =
      controls (controlWork control) := by
  rw [List.cons_append]
  show controls (controlWork control ++ [.checkExhausted]) = _
  rw [controls_append]
  exact List.append_nil _

private theorem unarmed_of_unusable (sound : system.host.FrameSound)
    (unusable : system.host.usable = false) : system.host.frame.armed = false := by
  cases armed : system.host.frame.armed with
  | false => rfl
  | true => exact absurd (sound.coherent.armed_usable armed) (by simp [unusable])

theorem Tracked.request_frame (tracked : system.Tracked) (idle : system.uiWork = []) :
    (system.requestFrame).Tracked := by
  simp only [requestFrame, requestFrameLocked]
  split
  · exact tracked
  · rename_i generation host requested
    split at requested <;> cases requested
    exact tracked.ui_section { system.host.frame with demand := true } idle rfl rfl rfl rfl rfl

/-- A driver call that hides the window, with nothing armed in it any more. -/
theorem Tracked.hidden {host : HostWindowState} {frame : FrameState} {work : List FrameWork}
    {control : FrameControl} (tracked : system.Tracked)
    (invalidated : host.frame = frame.invalidate) (unusable : host.usable = false)
    (worked : controls work = controls (controlWork control)) :
    Tracked { system with host, platformWork := work } := by
  refine tracked.platform_section worked (fun armed => ?_) fun _ => Or.inr (Or.inl unusable)
  rw [invalidated, (FrameState.invalidate_spec frame).1] at armed
  cases armed

/-- A driver call that shows the window, in which nothing was armed. -/
theorem Tracked.shown {host : HostWindowState} {frame : FrameState} {usable : Bool}
    {work : List FrameWork} (tracked : system.Tracked) (unarmed : frame.armed = false)
    (arms : host.frame = (frame.arm usable).2)
    (worked : controls work = controls (controlWork ⟨false, (frame.arm usable).1⟩)) :
    Tracked { system with host, platformWork := work } := by
  have taken := @FrameState.arm_generation frame usable unarmed
  rw [← arms] at taken
  refine tracked.platform_section worked taken.1 fun posting => ?_
  rcases posting with cancelled | posted
  · cases cancelled
  · exact Or.inl (taken.2 posted)

theorem Tracked.set_metrics (tracked : system.Tracked) (sound : system.host.FrameSound)
    (logicalSize : Size) (physicalWidth physicalHeight : Nat) (devicePixelRatio : ℚ) :
    (system.setMetrics logicalSize physicalWidth physicalHeight devicePixelRatio).Tracked := by
  have coherent := sound.coherent
  unfold setMetrics
  obtain ⟨outcome, rfl | rfl, done⟩ | ⟨metrics, _, _, done⟩ := set_metrics_cases system.host
    logicalSize physicalWidth physicalHeight devicePixelRatio
  · rw [done]
    exact tracked
  · rw [done]
    exact tracked
  · rw [done]
    obtain ⟨unarmed, idle, _, wanted, _⟩ := FrameState.invalidate_spec system.host.frame
    have arms := @FrameState.arm_generation system.host.frame.invalidate system.host.usable unarmed
    refine tracked.platform_section (driver_controls _) arms.1 fun posting => ?_
    rcases posting with cancelled | taken
    · -- What was armed is wanted again, so it is armed anew while generations last.
      have able := coherent.armed_usable cancelled
      have undelivered := idle.trans (coherent.exclusive cancelled)
      obtain ⟨refused, _⟩ | ⟨spent, _, done⟩ | ⟨_, _, _, _, done⟩ :=
        FrameState.arm_cases system.host.frame.invalidate system.host.usable
      · rw [able, unarmed, undelivered, wanted cancelled] at refused
        simp at refused
      · refine Or.inr (Or.inr ?_)
        show (system.host.frame.invalidate.arm system.host.usable).2.generation = _
        rw [done]
        exact spent
      · refine Or.inl ?_
        show (system.host.frame.invalidate.arm system.host.usable).2.armed = true
        rw [done]
    · exact Or.inl (arms.2 taken)

theorem Tracked.set_visible (tracked : system.Tracked) (sound : system.host.FrameSound)
    (visible : Bool) : (system.setVisible visible).Tracked := by
  unfold setVisible
  obtain done | ⟨rfl, _, hidden, done⟩ | ⟨rfl, _, done⟩ := set_visible_cases system.host visible
  · rw [done]
    exact tracked
  · rw [done]
    exact tracked.shown (unarmed_of_unusable sound (by simp [usable, hidden])) rfl
      (driver_controls _)
  · rw [done]
    exact tracked.hidden rfl (by simp [usable, invalidateFrameLocked]) (driver_controls _)

theorem Tracked.set_surface_state (tracked : system.Tracked) (sound : system.host.FrameSound)
    (surface : HostSurfaceState) (idle : system.platformWork = []) :
    (system.setSurfaceState surface).Tracked := by
  unfold setSurfaceState
  split
  · exact tracked
  obtain ⟨outcome, rfl | rfl, done⟩ | ⟨metrics, _, _, ⟨away, done⟩ | ⟨rfl, away, done⟩⟩ :=
    set_surface_state_cases system.host surface
  · rw [done]
    exact tracked
  · rw [done]
    have current := tracked.current
    rw [idle] at current
    exact ⟨tracked.ui, fun posted => absurd rfl posted, current⟩
  · rw [done]
    exact tracked.hidden rfl (by simp [usable, invalidateFrameLocked, away]) (driver_controls _)
  · rw [done]
    exact tracked.shown (unarmed_of_unusable sound (by simp [usable, away])) rfl
      (driver_controls _)

/-- A pulse leaves nothing armed. -/
theorem Tracked.frame_pulse (tracked : system.Tracked) (timestamp : Int) (generation : Nat) :
    (system.framePulse timestamp generation).Tracked := by
  unfold framePulse
  obtain ⟨outcome, rfl | rfl, done⟩ | ⟨_, _, _, _, done⟩ | ⟨_, _, _, _, done⟩ :=
    frame_pulse_cases system.host timestamp generation
  · rw [done]
    exact tracked
  · rw [done]
    exact tracked
  all_goals
    rw [done]
    exact ⟨tracked.ui, fun posted => absurd rfl posted, fun armed => by cases armed⟩

/-- The task at the front is one that the eventual token counts on. -/
theorem Tracked.run_control (tracked : system.Tracked) (sound : system.host.FrameSound)
    {control : FrameControl} {rest : List FrameControl}
    (queued : system.platformQueue = control :: rest) :
    Tracked { system with
      platformQueue := rest
      token := if system.host.running then control.apply system.token else system.token } := by
  refine ⟨tracked.ui, tracked.blocked, fun armed => ?_⟩
  obtain posting | later | ⟨quiet, held⟩ := tracked.current armed
  · exact Or.inl posting
  · exact Or.inr (Or.inl later)
  · have running : system.host.running = true := by
      have able := sound.coherent.armed_usable armed
      simp only [usable, Bool.and_eq_true] at able
      exact able.1.1
    refine Or.inr (Or.inr ⟨quiet, ?_⟩)
    rw [queued] at held
    rw [if_pos running]
    exact held

/-- Every step that posts no overtaken request keeps the current one tracked. -/
theorem step_tracked (sound : system.host.FrameSound) (tracked : system.Tracked) {action : Action}
    (posts : system.postsCurrent action = true) (stepped : system.step action = some next) :
    next.Tracked := by
  cases action with
  | requestFrame =>
    simp only [step, Option.ite_none_right_eq_some] at stepped
    obtain ⟨idle, stepped⟩ := stepped
    cases stepped
    exact tracked.request_frame (List.isEmpty_iff.mp idle)
  | beginFrame =>
    simp only [step] at stepped
    split at stepped
    · cases stepped
    · simp only [Option.ite_none_right_eq_some] at stepped
      obtain ⟨_, stepped⟩ := stepped
      cases stepped
      exact ⟨tracked.ui, tracked.blocked, tracked.current⟩
  | finishFrame =>
    simp only [step, Option.ite_none_right_eq_some] at stepped
    obtain ⟨⟨idle, _⟩, stepped⟩ := stepped
    cases stepped
    refine tracked.ui_section { system.host.frame with delivering := false }
      (List.isEmpty_iff.mp idle) rfl rfl rfl rfl ?_
    rw [controls_append]
    exact List.append_nil _
  | continueUi =>
    simp only [step] at stepped
    split at stepped
    · cases stepped
    · rename_i work rest working
      cases stepped
      exact tracked.continue_ui working posts
  | setMetrics logicalSize physicalWidth physicalHeight devicePixelRatio =>
    simp only [step, Option.ite_none_right_eq_some] at stepped
    obtain ⟨_, stepped⟩ := stepped
    cases stepped
    exact tracked.set_metrics sound logicalSize physicalWidth physicalHeight devicePixelRatio
  | setVisible visible =>
    simp only [step, Option.ite_none_right_eq_some] at stepped
    obtain ⟨_, stepped⟩ := stepped
    cases stepped
    exact tracked.set_visible sound visible
  | setSurfaceState surface =>
    simp only [step, Option.ite_none_right_eq_some] at stepped
    obtain ⟨idle, stepped⟩ := stepped
    cases stepped
    exact tracked.set_surface_state sound surface (List.isEmpty_iff.mp idle)
  | framePulse timestamp generation =>
    simp only [step, Option.ite_none_right_eq_some] at stepped
    obtain ⟨_, stepped⟩ := stepped
    cases stepped
    exact tracked.frame_pulse timestamp generation
  | runControl =>
    simp only [step] at stepped
    split at stepped
    · cases stepped
    · rename_i control rest queued
      simp only [Option.ite_none_right_eq_some] at stepped
      obtain ⟨_, stepped⟩ := stepped
      cases stepped
      exact tracked.run_control sound queued
  | continuePlatform =>
    simp only [step] at stepped
    split at stepped
    · cases stepped
    · rename_i work rest working
      cases stepped
      exact tracked.continue_platform working

end FrameSystem

/-- In every run, as long as there are generations left, a demanded frame of a
window that can show it is armed or being delivered. -/
theorem demand_never_parked {system : FrameSystem} (reached : Reachable frameMachine system) :
    system.host.FrameSound :=
  reached.invariant (fun system => system.host.FrameSound)
    (fun _ initial => (init_sound initial).1) fun _ _ _ sound _ stepped =>
      FrameSystem.step_sound sound stepped

/-- A pulse with the current generation and a time that goes on is accepted. -/
theorem pulse_accepted {host : HostWindowState} (sound : host.FrameSound)
    (armed : host.frame.armed = true) {timestamp : Int} (positive : 0 ≤ timestamp)
    (later : ∀ last ∈ host.frame.lastTimestamp, last ≤ timestamp)
    (left : host.frame.generation < maxGeneration) :
    (host.framePulseLocked timestamp host.frame.generation).1 =
      .accepted ⟨host.id, host.metrics, timestamp, host.frame.nextSequence⟩ := by
  have able := sound.coherent.armed_usable armed
  have used := sound.coherent.armed_sequence armed
  simp only [usable, Bool.and_eq_true, decide_eq_true_eq] at able
  have unspent : host.frame.nextSequence ≠ maxGeneration := by omega
  have ordered : host.frame.lastTimestamp.any (fun last => decide (timestamp < last)) = false := by
    cases last : host.frame.lastTimestamp with
    | none => rfl
    | some last' =>
      have := later last' (by rw [last]; rfl)
      simpa using this
  simp [framePulseLocked, able, armed, ordered, unspent, Int.not_lt.mpr positive]

/-- Some thread has armed a frame and not yet posted its request. -/
def FrameSystem.betweenArmingAndPosting (system : FrameSystem) : Bool :=
  (controls system.uiWork ++ controls system.platformWork).any (·.generation.isSome)

/-- In every run in which no overtaken request is posted, the control of an armed
window holds the current generation once nothing is on its way to it, a pulse with
that token is accepted, and demand is never parked while generations last. -/
theorem armed_frame_reaches_control {system : FrameSystem}
    (reached : Reaches frameMachine (fun system action => system.postsCurrent action = true) system) :
    (system.host.frame.armed = true → system.betweenArmingAndPosting = false →
      system.platformQueue = [] → system.token = some system.host.frame.generation ∧
      ∀ timestamp, 0 ≤ timestamp →
        (∀ last ∈ system.host.frame.lastTimestamp, last ≤ timestamp) →
        system.host.frame.generation < maxGeneration →
        ∃ request, (system.host.framePulseLocked timestamp system.host.frame.generation).1 =
          .accepted request) ∧
    (system.host.frame.generation < maxGeneration → system.host.frame.demand = true →
      system.host.usable = true →
      system.host.frame.armed = true ∨ system.host.frame.delivering = true) := by
  have kept : system.host.FrameSound ∧ system.Tracked :=
    reached.invariant (fun system => system.host.FrameSound ∧ system.Tracked)
      (fun system initial => by
        obtain ⟨sound, ui, platform, unarmed⟩ := init_sound initial
        refine ⟨sound, ?_, ?_, ?_⟩
        · exact Or.inl (by rw [ui]; rfl)
        · intro posted
          rw [platform] at posted
          exact absurd rfl posted
        · intro armed
          rw [unarmed] at armed
          cases armed)
      fun _ _ _ kept posts stepped =>
        ⟨FrameSystem.step_sound kept.1 stepped,
          FrameSystem.step_tracked kept.1 kept.2 posts stepped⟩
  obtain ⟨sound, tracked⟩ := kept
  refine ⟨fun armed settled drained => ?_, fun left demand able => ?_⟩
  · rw [FrameSystem.betweenArmingAndPosting, List.any_append, Bool.or_eq_false_iff] at settled
    obtain ⟨posting, _⟩ | ⟨cancel, posting⟩ | ⟨_, held⟩ := tracked.current armed
    · rw [posting] at settled
      cases settled.1
    · rw [posting] at settled
      cases settled.2
    · rw [drained] at held
      refine ⟨held, fun timestamp positive later left => ?_⟩
      exact ⟨_, pulse_accepted sound armed positive later left⟩
  · rcases sound.served demand able with armed | delivering | spent
    · exact Or.inl armed
    · exact Or.inr delivering
    · omega

/-- A visible window just created. -/
def shownFrames : FrameSystem :=
  { host := { id := 1, metrics := ⟨⟨10, 20⟩, 10, 20, 1, 1⟩, visible := true } }

theorem shown_frames_initial : frameMachine.init shownFrames := by
  refine ⟨1, ⟨10, 20⟩, 10, 20, 1, true, shownFrames.host, ?_, rfl⟩
  have valid : WindowMetrics.valid ⟨⟨10, 20⟩, 10, 20, 1, 1⟩ = true := by decide +kernel
  simp [createHostWindow, valid, shownFrames]

/-- The UI asks for a frame and its request reaches the control. -/
theorem requested_frame_held :
    ∃ system, frameMachine.run shownFrames [.requestFrame, .continueUi, .continueUi, .runControl] =
        some system ∧ system.host.frame.armed = true ∧
      system.token = some system.host.frame.generation := by
  have observed : (frameMachine.runGuarded (fun system action => system.postsCurrent action = true)
      shownFrames [.requestFrame, .continueUi, .continueUi, .runControl]).map (fun system =>
        (system.host.frame.armed, system.betweenArmingAndPosting, system.platformQueue)) =
      some (true, false, []) := by rfl
  obtain ⟨system, ran, seen⟩ := Option.map_eq_some_iff.mp observed
  simp only [Prod.mk.injEq] at seen
  obtain ⟨armed, settled, drained⟩ := seen
  refine ⟨system, ran, armed, ?_⟩
  exact ((armed_frame_reaches_control
    ((Reaches.start shown_frames_initial).run_guarded ran)).1 armed settled drained).1

/-- The UI arms a frame; before it posts, new metrics renew the request and post
theirs. The older request is posted last and the control keeps its token. -/
theorem overtaken_request_sticks :
    ∃ system, Reachable frameMachine system ∧ system.host.frame.armed = true ∧
      system.host.usable = true ∧ system.betweenArmingAndPosting = false ∧
      system.uiWork = [] ∧ system.platformWork = [] ∧ system.platformQueue = [] ∧
      system.host.frame.generation = 3 ∧ system.token = some 1 := by
  have observed : (frameMachine.run shownFrames [.requestFrame, .setMetrics ⟨20, 20⟩ 20 20 1,
      .continuePlatform, .continuePlatform, .continuePlatform, .continueUi, .continueUi,
      .runControl, .runControl]).map (fun system =>
        ((system.host.frame.armed, system.host.usable, system.betweenArmingAndPosting),
          (system.uiWork.isEmpty, system.platformWork.isEmpty, system.platformQueue.isEmpty),
          system.host.frame.generation, system.token)) =
      some ((true, true, false), (true, true, true), 3, some 1) := by decide +kernel
  obtain ⟨system, ran, seen⟩ := Option.map_eq_some_iff.mp observed
  simp only [Prod.mk.injEq, and_assoc, List.isEmpty_iff] at seen
  exact ⟨system, Reachable.run (.start shown_frames_initial) ran, seen⟩

end Dui
