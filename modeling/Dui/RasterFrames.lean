import Dui.RasterTickets

/-! The frames of a raster thread are surface frames: what the log says of the end of one
is what its delegate is told, and a frame lives as long as the worker has it. -/
namespace Dui
open RasterThread Transition

/-- The call of the frame's delegate. -/
def FrameEnd.event : FrameEnd → Surface.Event
  | .presented _ => .present
  | .abandoned => .abandon

/-- How an event ends a frame. -/
def RasterEvent.endOf (frame : Nat) : RasterEvent → Option FrameEnd
  | .frameEnded other how => if other = frame then some how else none
  | _ => none

/-- The calls with which a frame ended, by the log. -/
def frameEnds (log : List RasterEvent) (frame : Nat) : List Surface.Event :=
  (log.filterMap (RasterEvent.endOf frame)).map FrameEnd.event

/-- Whether the worker has a frame, and whether it is active there. -/
def WorkerPoint.has (frame : Nat) : WorkerPoint → Option Bool
  | .rendering _ other active => if other = frame then some active else none
  | .presenting _ other => if other = frame then some true else none
  | _ => none

section Events
variable {frame : Nat} {log events : List RasterEvent}

theorem frame_ends_append : frameEnds (log ++ events) frame =
    frameEnds log frame ++ frameEnds events frame := by
  unfold frameEnds
  rw [List.filterMap_append, List.map_append]

/-- Events that end no frame. -/
theorem frame_ends_still (still : ∀ event ∈ events, event.endOf frame = none) :
    frameEnds (log ++ events) frame = frameEnds log frame := by
  rw [frame_ends_append]
  unfold frameEnds
  rw [List.filterMap_eq_nil_iff.mpr still, List.map_nil, List.append_nil]

/-- Completing what is pending ends no frame. -/
theorem completions_still (pending : List Submission) (result : Except Failure FrameOutcome) :
    frameEnds (log ++ pending.map fun submission => .completed submission.ticket result) frame =
      frameEnds log frame := by
  refine frame_ends_still fun event completed => ?_
  obtain ⟨submission, _, rfl⟩ := List.mem_map.mp completed
  rfl

/-- The events of a frame end no other. -/
theorem frame_events_still {other ticket : Nat} (returned : SurfaceFrame) (apart : other ≠ frame) :
    ∀ event ∈ frameEvents other ticket returned, event.endOf frame = none := by
  intro event listed
  rcases List.mem_cons.mp listed with rfl | listed
  · rfl
  · cases ended : returned.ended with
    | none => simp [ended] at listed
    | some how =>
      rw [ended] at listed
      obtain rfl := List.mem_singleton.mp listed
      exact if_neg apart

theorem destroy_still {other : Nat} {active : Bool} (apart : other ≠ frame) :
    ∀ event ∈ destroyFrame other active, event.endOf frame = none := by
  intro event listed
  cases active with
  | true =>
    obtain rfl := List.mem_singleton.mp listed
    exact if_neg apart
  | false => cases listed

end Events

section Lives
variable {size : Surface.SizeType}

/-- The calls that ended a transaction. -/
def Surface.Life.ends : Surface.Life size → List Surface.Event
  | .alive frame => frame.events.filter Surface.Event.ends
  | .finished _ events => events.filter Surface.Event.ends
  | .unconstructed | .refused _ => []

/-- Whether a frame is active, while it lives. -/
def Surface.Life.active : Surface.Life size → Option Bool
  | .alive frame => some frame.active
  | _ => none

/-- A surface frame that a frame of a raster thread stands for. -/
structure RasterThread.Shows (thread : RasterThread) (frame : Nat) (life : Surface.Life size) :
    Prop where
  ends : life.ends = frameEnds thread.log frame
  active : life.active = thread.worker.has frame

/-- The frame of an acquisition says of a surface frame what is checked. -/
structure SurfaceFrame.Of (returned : SurfaceFrame) (frame : Surface.Frame size) : Prop where
  descriptor : returned.descriptor = ⟨frame.descriptor.width.toNat,
    frame.descriptor.height.toNat, frame.descriptor.generation.toNat⟩
  ended : frame.events.filter Surface.Event.ends = (returned.ended.map FrameEnd.event).toList

/-- What the calls of a surface frame make of it. -/
abbrev Surface.Life.Leads (first : Surface.Life size) : Surface.Life size → Prop :=
  Reachable ((Surface.frameMachine size).startedIn first)

variable {frame : Surface.Frame size} {first life : Surface.Life size}

/-- The transaction of a frame is over when its delegate has been told so. -/
theorem Surface.Frame.Sound.active_iff (sound : frame.Sound) :
    frame.active = true ↔ frame.events.filter Surface.Event.ends = [] := by
  cases active : frame.active with
  | true =>
    obtain ⟨_, count, events⟩ := sound.running active
    rw [events, List.filter_eq_nil_iff]
    refine ⟨fun _ event listed => ?_, fun _ => rfl⟩
    rw [Surface.exposures_open _ _ event listed]
    exact Bool.false_ne_true
  | false =>
    obtain ⟨_, count, last, ends, events⟩ := sound.closed active
    refine ⟨fun running => absurd running Bool.false_ne_true, fun none => ?_⟩
    rw [events, List.filter_eq_nil_iff] at none
    exact absurd ends (none last (List.mem_append_right _ List.mem_cons_self))

/-- What is checked of an acquisition is checked of the surface frame. -/
theorem ready_accepted_iff {acquisition : SurfaceAcquisition} {returned : SurfaceFrame}
    {request : SurfaceRequest} (sound : frame.Sound) (shown : returned.Of frame)
    (ready : acquisition.status = .ready) (found : acquisition.frame = some returned) :
    acquisition.rejected request = none ↔ frame.active = true ∧
      frame.descriptor.width.toNat = request.physicalWidth ∧
      frame.descriptor.height.toNat = request.physicalHeight ∧
      frame.descriptor.generation.toNat = request.generation := by
  have running : frame.active = true ↔ returned.ended = none := by
    rw [sound.active_iff, shown.ended]
    cases returned.ended with
    | none => exact ⟨fun _ => rfl, fun _ => rfl⟩
    | some how => exact ⟨fun none => absurd none (List.cons_ne_nil _ _), fun none => by cases none⟩
  unfold SurfaceAcquisition.rejected
  rw [if_neg (not_not_intro ready), found, running]
  dsimp only
  rw [shown.descriptor]
  cases returned.ended <;> simp

theorem alive_of_active {active : Bool} (held : life.active = some active) :
    ∃ frame, life = .alive frame ∧ frame.active = active := by
  cases life with
  | alive frame => exact ⟨frame, rfl, Option.some.inj held⟩
  | _ => cases held

theorem leads_call (led : first.Leads life) (action : Surface.Action size)
    {later : Surface.Life size} (stepped : life.step action = some later) : first.Leads later :=
  led.step trivial stepped

/-- A frame is ended by a call that its delegate is told of, unless it has been ended. -/
theorem end_leads (led : first.Leads (.alive frame)) (how : FrameEnd) :
    ∃ later, first.Leads (.alive later) ∧ later.active = false ∧
      later.events.filter Surface.Event.ends = frame.events.filter Surface.Event.ends ++
        if frame.active then [how.event] else [] := by
  cases how with
  | presented status =>
    refine ⟨(frame.present (.ok status)).2, leads_call led (.present (.ok status)) rfl, ?_, ?_⟩ <;>
      unfold Surface.Frame.present <;> cases active : frame.active <;>
      simp [active, Surface.Frame.log, Surface.Event.ends, FrameEnd.event]
  | abandoned =>
    refine ⟨frame.abandon, leads_call led .abandon rfl, frame.abandon_inactive, ?_⟩
    unfold Surface.Frame.abandon
    cases active : frame.active <;>
      simp [Surface.Frame.log, Surface.Event.ends, FrameEnd.event]

/-- The destructor ends a frame that has not been ended. -/
theorem destroy_leads (led : first.Leads (.alive frame)) :
    ∃ later, first.Leads later ∧ later.active = none ∧
      later.ends = frame.events.filter Surface.Event.ends ++
        if frame.active then [Surface.Event.abandon] else [] := by
  refine ⟨.finished frame.descriptor frame.abandon.events, leads_call led .destroy rfl, rfl, ?_⟩
  unfold Surface.Life.ends Surface.Frame.abandon
  cases active : frame.active <;> simp [Surface.Frame.log, Surface.Event.ends]

end Lives

namespace RasterThread.Shows
variable {size : Surface.SizeType} {first life : Surface.Life size}
variable {thread next : RasterThread} {number : Nat}

/-- What a step of the thread comes to for the frame. -/
abbrev Goes (first : Surface.Life size) (number : Nat) (next : RasterThread) : Prop :=
  ∃ later, first.Leads later ∧ next.Shows number later

/-- A step that is no concern of the frame. -/
theorem still (shows : thread.Shows number life) (led : first.Leads life)
    (ends : frameEnds next.log number = frameEnds thread.log number)
    (has : next.worker.has number = thread.worker.has number) : Goes first number next :=
  ⟨life, led, shows.ends.trans ends.symm, shows.active.trans has.symm⟩

/-- The renderer ends the frame that it has. -/
theorem renderer_ends (shows : thread.Shows number life) (led : first.Leads life)
    {submission : Submission} {frame : Nat} {active : Bool}
    (rendering : thread.worker = .rendering submission frame active) (how : FrameEnd) :
    Goes first number (thread.rendererEnds submission frame active how) := by
  obtain ⟨ends, held⟩ := shows
  rw [rendering] at held
  by_cases same : frame = number
  · subst same
    rw [WorkerPoint.has, if_pos rfl] at held
    obtain ⟨alive, rfl, running⟩ := alive_of_active held
    obtain ⟨later, led, closed, ended⟩ := end_leads led how
    refine ⟨.alive later, led, ?_, ?_⟩
    · refine ended.trans ?_
      rw [rendererEnds, frame_ends_append, ← ends, running]
      cases active <;> simp [Surface.Life.ends, frameEnds, RasterEvent.endOf]
    · rw [rendererEnds, WorkerPoint.has, if_pos rfl, ← closed]
      rfl
  · rw [WorkerPoint.has, if_neg same] at held
    refine ⟨life, led, ?_, ?_⟩
    · rw [rendererEnds, frame_ends_still, ends]
      cases active <;> simp [RasterEvent.endOf, same]
    · rw [rendererEnds, WorkerPoint.has, if_neg same, held]

/-- The frame is destroyed with what the renderer throws, or presented; where it has ended,
presenting throws and destroys it. -/
theorem renderer_returns (shows : thread.Shows number life) (led : first.Leads life)
    {submission : Submission} {frame : Nat} {active : Bool}
    (rendering : thread.worker = .rendering submission frame active) (raised : Option Failure) :
    Goes first number (thread.rendererReturns submission frame active raised) := by
  obtain ⟨ends, held⟩ := shows
  rw [rendering] at held
  by_cases same : frame = number
  · subst same
    rw [WorkerPoint.has, if_pos rfl] at held
    obtain ⟨alive, rfl, running⟩ := alive_of_active held
    obtain ⟨later, ledLater, gone, ended⟩ := destroy_leads led
    rw [running, show alive.events.filter _ = _ from ends] at ended
    cases raised with
    | some failure =>
      refine ⟨later, ledLater, ended.trans ?_, gone⟩
      rw [rendererReturns, frame_ends_append]
      cases active <;> simp [destroyFrame, frameEnds, RasterEvent.endOf, FrameEnd.event]
    | none =>
      cases active with
      | true =>
        refine ⟨.alive alive, led, ends, held.trans ?_⟩
        simp [rendererReturns, WorkerPoint.has]
      | false => exact ⟨later, ledLater, by simpa [rendererReturns] using ended, gone⟩
  · rw [WorkerPoint.has, if_neg same] at held
    refine ⟨life, led, ?_, ?_⟩
    · cases raised with
      | some failure =>
        rw [rendererReturns, frame_ends_still, ends]
        cases active <;> simp [destroyFrame, RasterEvent.endOf, same]
      | none => exact ends
    · rw [held]
      cases raised <;> cases active <;> simp [rendererReturns, WorkerPoint.has, same]

/-- A frame presented is destroyed. -/
theorem present_returns (shows : thread.Shows number life) (led : first.Leads life)
    {submission : Submission} {frame : Nat}
    (presenting : thread.worker = .presenting submission frame)
    (status : Surface.PresentStatus) :
    Goes first number (thread.presentReturns submission frame status) := by
  obtain ⟨ends, held⟩ := shows
  rw [presenting] at held
  have gone : (thread.presentReturns submission frame status).worker.has number = none := by
    cases status <;> rfl
  have logged : (thread.presentReturns submission frame status).log =
      thread.log ++ [.frameEnded frame (.presented status)] := rfl
  by_cases same : frame = number
  · subst same
    rw [WorkerPoint.has, if_pos rfl] at held
    obtain ⟨alive, rfl, running⟩ := alive_of_active held
    obtain ⟨shown, led, closed, presented⟩ := end_leads led (.presented status)
    obtain ⟨later, led, destroyed, ended⟩ := destroy_leads led
    refine ⟨later, led, ?_, destroyed.trans gone.symm⟩
    rw [ended, presented, closed, running, logged, frame_ends_append, ← ends]
    simp [Surface.Life.ends, frameEnds, RasterEvent.endOf]
  · rw [WorkerPoint.has, if_neg same] at held
    refine ⟨life, led, ?_, held.trans gone.symm⟩
    rw [logged, frame_ends_still, ends]
    simp [RasterEvent.endOf, same]

/-- The surface hands out another frame. -/
theorem surface_returns (shows : thread.Shows number life) (led : first.Leads life)
    (known : number < thread.frames) {submission : Submission}
    (acquiring : thread.worker = .acquiring submission)
    (returned : Except Failure SurfaceAcquisition) :
    Goes first number (thread.surfaceReturns submission returned) := by
  have other : thread.frames ≠ number := Nat.ne_of_gt known
  refine shows.still led ?_ ?_
  · unfold surfaceReturns
    split
    case h_1 => rfl
    case h_2 acquisition =>
      dsimp only
      split <;> refine frame_ends_still ?_
      · cases acquisition.frame with
        | none => exact fun event listed => by cases listed
        | some frame =>
          exact List.forall_mem_append.mpr ⟨frame_events_still frame other, destroy_still other⟩
      · cases acquisition.frame with
        | none => exact fun event listed => by cases listed
        | some frame => exact frame_events_still frame other
  · rw [acquiring]
    unfold surfaceReturns
    split
    case h_1 => rfl
    case h_2 acquisition =>
      dsimp only
      split
      · rfl
      · cases status : acquisition.status <;> simp [acquired, WorkerPoint.has, other]

/-- A step that completes submissions, while the worker has no frame. -/
theorem idle (shows : thread.Shows number life) (led : first.Leads life)
    (ends : frameEnds next.log number = frameEnds thread.log number)
    (before : thread.worker.has number = none) (after : next.worker.has number = none) :
    Goes first number next :=
  shows.still led ends (after.trans before.symm)

theorem work (shows : thread.Shows number life) (led : first.Leads life)
    (stepped : thread.step .work = some next) : Goes first number next := by
  simp only [RasterThread.step] at stepped
  split at stepped
  case h_1 failure creating =>
    cases stepped
    refine shows.idle led ?_ (by rw [creating]; rfl) rfl
    unfold reportCreation failPending completePending
    rw [completions_still, frame_ends_still (by simp [RasterEvent.endOf])]
  case h_2 waiting =>
    unfold takeSubmission at stepped
    split at stepped
    · split at stepped <;> cases stepped
      exact shows.idle led rfl (by rw [waiting]; rfl) rfl
    · cases stepped
      refine shows.idle led (frame_ends_still (by simp [RasterEvent.endOf]))
        (by rw [waiting]; rfl) ?_
      dsimp only
      split <;> rfl
  case h_3 settling =>
    cases stepped
    exact shows.idle led (frame_ends_still (by simp [RasterEvent.endOf]))
      (by rw [settling]; rfl) rfl
  case h_4 failing =>
    cases stepped
    refine shows.idle led ?_ (by rw [failing]; rfl) rfl
    unfold RasterThread.fail failPending completePending
    rw [completions_still, frame_ends_still (by simp [RasterEvent.endOf])]
  case h_5 => cases stepped

/-- A step of a raster thread is for each of its frames what some calls make of it. -/
theorem step {action : Action} (shows : thread.Shows number life) (led : first.Leads life)
    (known : number < thread.frames) (stepped : thread.step action = some next) :
    Goes first number next := by
  cases action with
  | submit layerTree request =>
    cases stepped
    refine shows.still led ?_ ?_ <;> unfold RasterThread.submit <;> split
    · exact frame_ends_still (by simp [RasterEvent.endOf])
    · exact frame_ends_still (by simp [RasterEvent.endOf])
    · rfl
    · rfl
  | requestStop =>
    cases stepped
    exact shows.still led (completions_still _ _) rfl
  | factoryReturns renderer =>
    simp only [RasterThread.step] at stepped
    split at stepped <;> cases stepped
    rename_i creating
    refine shows.idle led rfl (by rw [creating]; rfl) ?_
    unfold RasterThread.factoryReturns
    dsimp only
    split <;> rfl
  | surfaceReturns returned =>
    simp only [RasterThread.step] at stepped
    split at stepped <;> cases stepped
    exact shows.surface_returns led known ‹_› returned
  | rendererEnds how =>
    simp only [RasterThread.step] at stepped
    split at stepped <;> cases stepped
    exact shows.renderer_ends led ‹_› how
  | rendererReturns raised =>
    simp only [RasterThread.step] at stepped
    split at stepped <;> cases stepped
    exact shows.renderer_returns led ‹_› raised
  | presentReturns status =>
    simp only [RasterThread.step] at stepped
    split at stepped <;> cases stepped
    exact shows.present_returns led ‹_› status
  | work => exact shows.work led stepped

/-- The frame of an acquisition goes on as the surface has left it. -/
theorem acquire {frame : Surface.Frame size} {acquisition : SurfaceAcquisition}
    {returned : SurfaceFrame} {submission : Submission} (led : first.Leads (.alive frame))
    (found : acquisition.frame = some returned) (active : frame.active = returned.ended.isNone)
    (ended : frame.events.filter Surface.Event.ends =
      (returned.ended.map FrameEnd.event).toList)
    (fresh : frameEnds thread.log thread.frames = []) :
    Goes first thread.frames (thread.surfaceReturns submission (.ok acquisition)) := by
  have before : frameEnds (frameEvents thread.frames submission.ticket returned) thread.frames =
      (returned.ended.map FrameEnd.event).toList := by
    unfold frameEvents frameEnds
    cases returned.ended <;> simp [RasterEvent.endOf, List.filterMap_cons]
  cases rejected : acquisition.rejected submission.request with
  | some failure =>
    obtain ⟨later, led, gone, last⟩ := destroy_leads led
    refine ⟨later, led, ?_, gone.trans ?_⟩
    · simp only [surfaceReturns, rejected, found, Option.elim_some]
      rw [frame_ends_append, frame_ends_append, fresh, before, last, ended, active]
      unfold destroyFrame
      cases returned.ended <;> simp [frameEnds, RasterEvent.endOf, FrameEnd.event]
    · simp only [surfaceReturns, rejected]
      rfl
  | none =>
    obtain ⟨ready, kept, same, running⟩ | ⟨_, none⟩ := RasterThread.Sound.accepted_cases rejected
    · cases found.symm.trans same
      refine ⟨.alive frame, led, ended.trans ?_, ?_⟩
      · simp only [surfaceReturns, rejected, found, Option.elim_some]
        rw [frame_ends_append, fresh, before, List.nil_append]
      · simp only [surfaceReturns, rejected, ready, acquired, WorkerPoint.has, if_pos]
        rw [Surface.Life.active, active, running]
        rfl
    · cases found.symm.trans none

end RasterThread.Shows

section Runs
variable {size : Surface.SizeType} {thread next : RasterThread}

/-- A frame that no event has ended. -/
theorem frame_ends_fresh {log : List RasterEvent} {frame : Nat} (fresh : frame ∉ endedFrames log) :
    frameEnds log frame = [] := by
  unfold frameEnds
  rw [List.map_eq_nil_iff, List.filterMap_eq_nil_iff]
  intro event logged
  cases event with
  | frameEnded other how =>
    refine if_neg fun same => fresh (List.mem_filterMap.mpr ⟨_, logged, ?_⟩)
    rw [RasterEvent.ending, same]
  | _ => rfl

/-- Frames are numbered as the surface hands them out. -/
theorem frames_grow {action : Action} (stepped : thread.step action = some next) :
    next.frames = thread.frames ∨ next.frames = thread.frames + 1 ∧
      ∃ submission acquisition returned, acquisition.frame = some returned ∧
        next = thread.surfaceReturns submission (.ok acquisition) := by
  cases action with
  | submit layerTree request =>
    cases stepped
    unfold RasterThread.submit
    split <;> exact .inl rfl
  | surfaceReturns outcome =>
    simp only [RasterThread.step] at stepped
    split at stepped <;> cases stepped
    rename_i submission acquiring
    cases outcome with
    | error failure => exact .inl rfl
    | ok acquisition =>
      cases found : acquisition.frame with
      | none =>
        refine .inl ?_
        unfold surfaceReturns
        dsimp only
        split <;> simp [found]
      | some returned =>
        refine .inr ⟨?_, submission, acquisition, returned, found, rfl⟩
        unfold surfaceReturns
        dsimp only
        split <;> simp [found]
  | work =>
    simp only [RasterThread.step] at stepped
    split at stepped
    case h_2 =>
      unfold takeSubmission at stepped
      split at stepped
      · split at stepped <;> cases stepped
        exact .inl rfl
      · cases stepped
        exact .inl rfl
    all_goals cases stepped <;> exact .inl rfl
  | rendererReturns raised =>
    simp only [RasterThread.step] at stepped
    split at stepped <;> cases stepped
    unfold rendererReturns
    split <;> exact .inl rfl
  | requestStop =>
    cases stepped
    exact .inl rfl
  | factoryReturns | rendererEnds | presentReturns =>
    simp only [RasterThread.step] at stepped
    split at stepped <;> cases stepped
    exact .inl rfl

/-- The frame that the surface hands out next has not been ended. -/
theorem next_frame_unended (sound : thread.Sound) : frameEnds thread.log thread.frames = [] := by
  refine frame_ends_fresh fun ended => ?_
  have placed := sound.frames.placed thread.frames
  have unacquired : (acquiredFrames thread.log).count thread.frames = 0 := by
    rw [sound.frames.numbered, List.count_eq_zero]
    exact fun among => absurd (List.mem_range.mp among) (Nat.lt_irrefl _)
  have counted := List.count_pos_iff.mpr ended
  omega

/-- Frames handed out earlier go on, and a new one starts with what the surface did to it. -/
theorem shows_each_step {action : Action} {made : Surface.Frame size} (sound : thread.Sound)
    (active : made.active = true) (unended : made.events.filter Surface.Event.ends = [])
    (each : ∀ number < thread.frames, RasterThread.Shows.Goes (.alive made) number thread)
    (stepped : thread.step action = some next) :
    ∀ number < next.frames, RasterThread.Shows.Goes (.alive made) number next := by
  intro number known
  by_cases old : number < thread.frames
  · obtain ⟨life, led, shows⟩ := each number old
    exact shows.step led old stepped
  obtain same | ⟨grown, submission, acquisition, returned, found, rfl⟩ := frames_grow stepped
  · exact absurd (same ▸ known) old
  obtain rfl : number = thread.frames := by omega
  have first : (Surface.Life.alive made).Leads (.alive made) := .start rfl
  cases ended : returned.ended with
  | none =>
    exact RasterThread.Shows.acquire first found (by rw [active, ended]; rfl)
      (by rw [unended, ended]; rfl) (next_frame_unended sound)
  | some how =>
    obtain ⟨later, led, closed, told⟩ := end_leads first how
    exact RasterThread.Shows.acquire led found (by rw [closed, ended]; rfl)
      (by rw [told, unended, active, ended]; rfl) (next_frame_unended sound)

/-- Whatever surface frame is handed to a raster thread, some calls make of it what the
thread's log says of it, and it lives, active or not, as the worker has it. -/
theorem raster_frames_transact (reached : Reachable rasterMachine thread)
    {descriptor : Surface.Descriptor size} {mapped : Except Failure Nat}
    {made : Surface.Frame size}
    (constructed : Surface.Frame.construct descriptor mapped = some (.ok made)) {number : Nat}
    (acquired : number ∈ acquiredFrames thread.log) :
    ∃ life, (Surface.Life.alive made).Leads life ∧ thread.Shows number life := by
  obtain ⟨active, unended⟩ : made.active = true ∧
      made.events.filter Surface.Event.ends = [] := by
    obtain ⟨_, _, thrown, _⟩ | ⟨frame, returned, built⟩ :=
      Surface.Frame.construct_cases descriptor mapped
    · cases thrown.symm.trans constructed
    · cases returned.symm.trans constructed
      rw [built.frame]
      exact ⟨rfl, rfl⟩
  have all : thread.Sound ∧ ∀ number < thread.frames,
      RasterThread.Shows.Goes (.alive made) number thread := by
    refine Reaches.invariant (fun thread => thread.Sound ∧ ∀ number < thread.frames,
      RasterThread.Shows.Goes (.alive made) number thread) ?_ ?_ reached
    · rintro _ rfl
      exact ⟨.start, fun number known => absurd known (Nat.not_lt_zero number)⟩
    · intro thread action next good _ stepped
      exact ⟨good.1.step stepped, shows_each_step good.1 active unended good.2 stepped⟩
  rw [all.1.frames.numbered, List.mem_range] at acquired
  exact all.2 number acquired

end Runs

end Dui
