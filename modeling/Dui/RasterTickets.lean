import Mathlib.Data.List.Range
import Dui.RasterThread

/-! Raster tickets complete exactly once, in every interleaving of the callers of a
raster thread with its worker. -/
namespace Dui
open RasterThread Transition

/-- Every event of a log meets a condition on the events before it. -/
def EachEvent {ε : Type*} (meets : List ε → ε → Prop) (log : List ε) : Prop :=
  ∀ before event after, log = before ++ event :: after → meets before event

section EachEvent
variable {ε : Type*} {meets : List ε → ε → Prop}

theorem each_event_nil : EachEvent meets [] := by
  intro before event after whole
  simp at whole

/-- Further events whose conditions hold behind the log and any of their own. -/
theorem EachEvent.append {log events : List ε} (each : EachEvent meets log)
    (further : ∀ before event after, events = before ++ event :: after →
      meets (log ++ before) event) : EachEvent meets (log ++ events) := by
  intro before event after whole
  obtain ⟨between, rfl, rest⟩ | ⟨between, rfl, rest⟩ := List.append_eq_append_iff.mp whole
  · exact further between event after rest
  · cases between with
    | nil =>
      have met := further [] event after rest.symm
      simpa using met
    | cons first between =>
      obtain ⟨rfl, rfl⟩ := List.cons.inj rest
      exact each before _ between rfl

theorem EachEvent.snoc {log : List ε} {event : ε} (each : EachEvent meets log)
    (met : meets log event) : EachEvent meets (log ++ [event]) := by
  apply each.append
  intro before last after whole
  obtain ⟨rfl, same⟩ : before = [] ∧ event :: [] = last :: after := by
    cases before with
    | nil => exact ⟨rfl, whole⟩
    | cons first before => simp at whole
  cases same
  rwa [List.append_nil]

end EachEvent

@[simp] def RasterEvent.submission : RasterEvent → Option Nat
  | .submitted ticket => some ticket
  | _ => none

@[simp] def RasterEvent.start : RasterEvent → Option Nat
  | .started ticket => some ticket
  | _ => none

@[simp] def RasterEvent.completion : RasterEvent → Option Nat
  | .completed ticket _ => some ticket
  | _ => none

@[simp] def RasterEvent.acquisition : RasterEvent → Option Nat
  | .acquired frame _ => some frame
  | _ => none

@[simp] def RasterEvent.ending : RasterEvent → Option Nat
  | .frameEnded frame _ => some frame
  | _ => none

/-- The tickets handed out, in order. -/
@[simp] def submittedTickets (log : List RasterEvent) : List Nat :=
  log.filterMap RasterEvent.submission

/-- The tickets whose work was begun, in order. -/
@[simp] def startedTickets (log : List RasterEvent) : List Nat := log.filterMap RasterEvent.start

/-- The tickets completed, once for each time. -/
@[simp] def completedTickets (log : List RasterEvent) : List Nat :=
  log.filterMap RasterEvent.completion

/-- The frames that the surface handed out. -/
@[simp] def acquiredFrames (log : List RasterEvent) : List Nat :=
  log.filterMap RasterEvent.acquisition

/-- The frames presented or abandoned, once for each time. -/
@[simp] def endedFrames (log : List RasterEvent) : List Nat := log.filterMap RasterEvent.ending

/-- The submission that the worker has taken. -/
def WorkerPoint.submission : WorkerPoint → Option Submission
  | .acquiring submission | .rendering submission _ _ | .presenting submission _
  | .settling submission _ | .failing submission _ => some submission
  | .creating | .creationFailed _ | .waiting | .exited => none

/-- The frame that has not been ended. -/
def WorkerPoint.held : WorkerPoint → Option Nat
  | .rendering _ frame true | .presenting _ frame => some frame
  | _ => none

/-- The frame that the worker works on, and for which submission. -/
def WorkerPoint.frame : WorkerPoint → Option (Nat × Submission)
  | .rendering submission frame _ | .presenting submission frame => some (frame, submission)
  | _ => none

/-- Where the tickets are: pending, in flight or completed, in the order of their
submission. -/
structure TicketsPlaced (submitted started completed pending : List Nat)
    (inFlight : Option Nat) (stopping : Bool) : Prop where
  numbered : submitted = List.range submitted.length
  begun : started = List.range started.length
  within : started.length ≤ submitted.length
  queued : pending = if stopping then [] else
    List.range' started.length (submitted.length - started.length)
  placed : ∀ ticket, completed.count ticket + pending.count ticket +
    inFlight.toList.count ticket = submitted.count ticket

namespace TicketsPlaced
variable {submitted started completed pending : List Nat} {inFlight : Option Nat} {stopping : Bool}

theorem submit (placed : TicketsPlaced submitted started completed pending inFlight false) :
    TicketsPlaced (submitted ++ [submitted.length]) started completed
      (pending ++ [submitted.length]) inFlight false := by
  obtain ⟨numbered, begun, within, queued, placed⟩ := placed
  constructor
  · rw [List.length_append, List.length_singleton, List.range_succ, ← numbered]
  · exact begun
  · rw [List.length_append]
    omega
  · have more : submitted.length + 1 - started.length =
        (submitted.length - started.length) + 1 := by omega
    have last : started.length + (submitted.length - started.length) = submitted.length := by omega
    simp only [Bool.false_eq_true, if_false] at queued ⊢
    rw [List.length_append, List.length_singleton, more, List.range'_concat, ← queued, one_mul,
      last]
  · intro ticket
    have same := placed ticket
    rw [List.count_append, List.count_append]
    omega

/-- All pending tickets are completed, and none come in any more. -/
theorem drain (placed : TicketsPlaced submitted started completed pending inFlight stopping) :
    TicketsPlaced submitted started (completed ++ pending) [] inFlight true := by
  obtain ⟨numbered, begun, within, queued, placed⟩ := placed
  refine ⟨numbered, begun, within, rfl, fun ticket => ?_⟩
  have same := placed ticket
  rw [List.count_append, List.count_nil]
  omega

theorem take {ticket : Nat} {rest : List Nat}
    (placed : TicketsPlaced submitted started completed (ticket :: rest) none stopping) :
    TicketsPlaced submitted (started ++ [ticket]) completed rest (some ticket) stopping := by
  obtain ⟨numbered, begun, within, queued, placed⟩ := placed
  cases stopping with
  | true => simp at queued
  | false =>
    simp only [Bool.false_eq_true, if_false] at queued
    obtain ⟨left, more⟩ : ∃ left, submitted.length - started.length = left + 1 := by
      cases size : submitted.length - started.length with
      | zero => simp [size] at queued
      | succ left => exact ⟨left, rfl⟩
    rw [more, List.range'_succ] at queued
    obtain ⟨rfl, rfl⟩ := List.cons.inj queued
    constructor
    · exact numbered
    · rw [List.length_append, List.length_singleton, List.range_succ, ← begun]
    · rw [List.length_append, List.length_singleton]
      omega
    · have fewer : submitted.length - (started.length + 1) = left := by omega
      simp only [Bool.false_eq_true, if_false, List.length_append, List.length_singleton, fewer]
    · intro ticket
      have same := placed ticket
      simp only [List.count_cons, Option.toList_none, List.count_nil, Option.toList_some] at same ⊢
      omega

theorem complete {ticket : Nat}
    (placed : TicketsPlaced submitted started completed pending (some ticket) stopping) :
    TicketsPlaced submitted started (completed ++ [ticket]) pending none stopping := by
  obtain ⟨numbered, begun, within, queued, placed⟩ := placed
  refine ⟨numbered, begun, within, queued, fun other => ?_⟩
  have same := placed other
  simp only [Option.toList_some, Option.toList_none, List.count_append, List.count_nil] at same ⊢
  omega

/-- A ticket that was handed out was handed out once. -/
theorem submitted_once
    (placed : TicketsPlaced submitted started completed pending inFlight stopping) (ticket : Nat) :
    submitted.count ticket = if ticket < submitted.length then 1 else 0 := by
  rw [placed.numbered, List.length_range]
  split
  case isTrue known => exact List.count_eq_one_of_mem (List.nodup_range) (List.mem_range.mpr known)
  case isFalse unknown => exact List.count_eq_zero.mpr (mt List.mem_range.mp unknown)

/-- With nothing in flight, what was begun has been completed. -/
theorem begun_completed (placed : TicketsPlaced submitted started completed pending none stopping)
    {ticket : Nat} (begun : ticket ∈ started) : ticket ∈ completed := by
  rw [placed.begun, List.mem_range] at begun
  have handed := placed.submitted_once ticket
  rw [if_pos (begun.trans_le placed.within)] at handed
  have unqueued : pending.count ticket = 0 := by
    rw [placed.queued, List.count_eq_zero]
    split
    · exact List.not_mem_nil
    · simp only [List.mem_range'_1]
      omega
  have same := placed.placed ticket
  apply List.count_pos_iff.mp
  simp only [Option.toList_none, List.count_nil] at same
  omega

end TicketsPlaced

/-- Each frame handed out has been ended once or is held by the worker. -/
structure FramesEnded (acquired ended : List Nat) (frames : Nat) (held : Option Nat) : Prop where
  numbered : acquired = List.range frames
  placed : ∀ frame, ended.count frame + held.toList.count frame = acquired.count frame

namespace FramesEnded
variable {acquired ended : List Nat} {frames : Nat}

theorem hold (placed : FramesEnded acquired ended frames none) :
    FramesEnded (acquired ++ [frames]) ended (frames + 1) (some frames) := by
  obtain ⟨numbered, placed⟩ := placed
  refine ⟨by rw [List.range_succ, ← numbered], fun frame => ?_⟩
  have same := placed frame
  simp only [Option.toList_some, Option.toList_none, List.count_append, List.count_nil] at same ⊢
  omega

theorem finish {frame : Nat} (placed : FramesEnded acquired ended frames (some frame)) :
    FramesEnded acquired (ended ++ [frame]) frames none := by
  obtain ⟨numbered, placed⟩ := placed
  refine ⟨numbered, fun frame => ?_⟩
  have same := placed frame
  simp only [Option.toList_some, Option.toList_none, List.count_append, List.count_nil] at same ⊢
  omega

end FramesEnded

/-- What an event says about the events before it. -/
def RasterEvent.Follows (before : List RasterEvent) : RasterEvent → Prop
  | .submitted _ | .failed _ => ∀ failure, .failed failure ∉ before
  | .refused layerTree request failure => checkSubmission layerTree request = none →
    ∀ known, .failed known ∈ before → failure = known
  | .started _ => ∀ earlier, .started earlier ∈ before →
    ∃ result, .completed earlier result ∈ before
  | .completed ticket result =>
    (result = .ok .presented → ∃ frame, .acquired frame ticket ∈ before ∧
      .frameEnded frame (.presented .presented) ∈ before) ∧
    ∀ failure, .failed failure ∈ before ↔ result = .error failure
  | .acquired _ _ | .frameEnded _ _ => True

/-- What holds of a raster thread between any two of its steps. -/
structure RasterThread.Sound (thread : RasterThread) : Prop where
  counted : thread.tickets = (submittedTickets thread.log).length
  tickets : TicketsPlaced (submittedTickets thread.log) (startedTickets thread.log)
    (completedTickets thread.log) (thread.state.pending.map Submission.ticket)
    (thread.worker.submission.map Submission.ticket) thread.state.stopping
  frames : FramesEnded (acquiredFrames thread.log) (endedFrames thread.log) thread.frames
    thread.worker.held
  history : EachEvent RasterEvent.Follows thread.log
  failure : ∀ failure, .failed failure ∈ thread.log ↔ thread.state.failure = some failure
  terminal : thread.state.failure.isSome → thread.worker = .exited
  exited : thread.worker = .exited → thread.state.stopping = true
  rendering : thread.state.rendering = thread.worker.submission.isSome
  owned : ∀ frame submission, thread.worker.frame = some (frame, submission) →
    .acquired frame submission.ticket ∈ thread.log
  shown : ∀ submission, thread.worker = .settling submission .presented →
    ∃ frame, .acquired frame submission.ticket ∈ thread.log ∧
      .frameEnded frame (.presented .presented) ∈ thread.log

namespace RasterThread.Sound
variable {thread : RasterThread}

/-- No failure is recorded while the worker goes on. -/
theorem unfailed (sound : thread.Sound) (going : thread.worker ≠ .exited) :
    thread.state.failure = none := by
  cases failed : thread.state.failure with
  | none => rfl
  | some failure => exact absurd (sound.terminal (by simp [failed])) going

theorem unlogged (sound : thread.Sound) (none : thread.state.failure = none) (failure : Failure) :
    .failed failure ∉ thread.log := by
  intro logged
  have failed := (sound.failure failure).mp logged
  simp [none] at failed

/-- What is known about the worker's frame stays known. -/
theorem shown_append (sound : thread.Sound) (events : List RasterEvent) (submission : Submission)
    (settling : thread.worker = .settling submission .presented) :
    ∃ frame, .acquired frame submission.ticket ∈ thread.log ++ events ∧
      .frameEnded frame (.presented .presented) ∈ thread.log ++ events := by
  obtain ⟨frame, taken, presented⟩ := sound.shown submission settling
  exact ⟨frame, List.mem_append_left _ taken, List.mem_append_left _ presented⟩

theorem submit (sound : thread.Sound) (layerTree : LayerTree) (request : SurfaceRequest) :
    (thread.submit layerTree request).Sound := by
  unfold RasterThread.submit
  split
  case h_1 raised refused =>
    constructor
    · simpa [List.filterMap_cons] using sound.counted
    · simpa [List.filterMap_cons] using sound.tickets
    · simpa [List.filterMap_cons] using sound.frames
    · apply sound.history.snoc
      intro valid known logged
      simp only [refuses, valid, (sound.failure known).mp logged, Option.some.injEq] at refused
      exact refused.symm
    · simpa using sound.failure
    · exact sound.terminal
    · exact sound.exited
    · exact sound.rendering
    · exact fun _ _ works => List.mem_append_left _ (sound.owned _ _ works)
    · exact sound.shown_append _
  case h_2 accepted =>
    obtain ⟨none, going⟩ : thread.state.failure = none ∧ thread.state.stopping = false := by
      unfold refuses at accepted
      split at accepted
      · cases accepted
      · split at accepted
        · cases accepted
        · split at accepted
          · cases accepted
          · exact ⟨‹_›, by simpa using ‹¬ thread.state.stopping = true›⟩
    have tickets := sound.tickets
    rw [going] at tickets
    have more := tickets.submit
    rw [← sound.counted] at more
    constructor
    · simpa [List.filterMap_cons] using sound.counted
    · simpa [List.filterMap_cons, going] using more
    · simpa [List.filterMap_cons] using sound.frames
    · exact sound.history.snoc (sound.unlogged none)
    · simpa using sound.failure
    · exact sound.terminal
    · exact sound.exited
    · exact sound.rendering
    · exact fun _ _ works => List.mem_append_left _ (sound.owned _ _ works)
    · exact sound.shown_append _

section Completions
variable (pending : List Submission) (result : Except Failure FrameOutcome)

/-- Completing what is pending is no other kind of event. -/
theorem completions_none {kind : RasterEvent → Option Nat}
    (other : ∀ ticket, kind (.completed ticket result) = none) :
    (pending.map fun submission => RasterEvent.completed submission.ticket result).filterMap kind =
      [] := by
  simp [other]

@[simp] theorem completions_submission :
    (pending.map fun submission => RasterEvent.completed submission.ticket result).filterMap
      RasterEvent.submission = [] :=
  completions_none _ _ fun _ => rfl

@[simp] theorem completions_start :
    (pending.map fun submission => RasterEvent.completed submission.ticket result).filterMap
      RasterEvent.start = [] :=
  completions_none _ _ fun _ => rfl

@[simp] theorem completions_acquisition :
    (pending.map fun submission => RasterEvent.completed submission.ticket result).filterMap
      RasterEvent.acquisition = [] :=
  completions_none _ _ fun _ => rfl

@[simp] theorem completions_ending :
    (pending.map fun submission => RasterEvent.completed submission.ticket result).filterMap
      RasterEvent.ending = [] :=
  completions_none _ _ fun _ => rfl

@[simp] theorem completions_completion :
    (pending.map fun submission => RasterEvent.completed submission.ticket result).filterMap
      RasterEvent.completion = pending.map Submission.ticket := by
  rw [List.filterMap_map, ← List.filterMap_eq_map]
  rfl

end Completions

/-- Completing what is pending, where that follows. -/
theorem history_completions {log : List RasterEvent} (history : EachEvent RasterEvent.Follows log)
    (pending : List Submission) {result : Except Failure FrameOutcome}
    (unpresented : result ≠ .ok .presented)
    (follows : pending ≠ [] → ∀ failure, .failed failure ∈ log ↔ result = .error failure) :
    EachEvent RasterEvent.Follows (log ++ pending.map fun submission =>
      .completed submission.ticket result) := by
  apply history.append
  intro before event after whole
  obtain ⟨early, late, rfl, rfl, same⟩ := List.map_eq_append_iff.mp whole
  obtain ⟨submission, later, rfl, rfl, rfl⟩ := List.map_eq_cons_iff.mp same
  refine ⟨fun presented => absurd presented unpresented, fun failure => ?_⟩
  rw [← follows (by simp) failure]
  simp

/-- While something is pending, no failure has been recorded. -/
theorem pending_unfailed (sound : thread.Sound) (waiting : thread.state.pending ≠ []) :
    thread.state.failure = none := by
  cases failed : thread.state.failure with
  | none => rfl
  | some failure =>
    have stopping := sound.exited (sound.terminal (by simp [failed]))
    have queued := sound.tickets.queued
    rw [stopping, if_pos rfl, List.map_eq_nil_iff] at queued
    exact absurd queued waiting

theorem request_stop (sound : thread.Sound) : thread.requestStop.Sound := by
  constructor
  · simpa [requestStop, cancelPending, completePending, -List.filterMap_map] using sound.counted
  · simpa [requestStop, cancelPending, completePending, -List.filterMap_map] using
      sound.tickets.drain
  · simpa [requestStop, cancelPending, completePending, -List.filterMap_map] using sound.frames
  · apply history_completions sound.history
    · simp
    · intro waiting failure
      simp [sound.unlogged (sound.pending_unfailed waiting) failure]
  · simpa [requestStop, cancelPending, completePending] using sound.failure
  · exact sound.terminal
  · exact fun _ => rfl
  · exact sound.rendering
  · exact fun _ _ works => List.mem_append_left _ (sound.owned _ _ works)
  · exact sound.shown_append _

/-- Only the worker moves, to where it neither ends nor holds or knows anything new. -/
theorem move {point : WorkerPoint} (sound : thread.Sound) (going : thread.worker ≠ .exited)
    (submission : point.submission = thread.worker.submission)
    (held : point.held = thread.worker.held)
    (framed : point.frame = none ∨ point.frame = thread.worker.frame)
    (unexited : point ≠ .exited) (unshown : ∀ submission, point ≠ .settling submission .presented) :
    RasterThread.Sound { thread with worker := point } := by
  constructor
  · exact sound.counted
  · simpa only [submission] using sound.tickets
  · simpa only [held] using sound.frames
  · exact sound.history
  · exact sound.failure
  · simp [sound.unfailed going]
  · exact fun exited => absurd exited unexited
  · simpa only [submission] using sound.rendering
  · intro frame submission works
    obtain none | same := framed
    · simp [none] at works
    · exact sound.owned frame submission (same ▸ works)
  · exact fun submission settling => absurd settling (unshown submission)

theorem factory_returns (sound : thread.Sound) (creating : thread.worker = .creating)
    (renderer : Except Failure Bool) : (thread.factoryReturns renderer).Sound := by
  unfold factoryReturns
  split <;> exact sound.move (by simp [creating]) (by simp [creating, WorkerPoint.submission])
    (by simp [creating, WorkerPoint.held]) (.inl rfl) (by simp) (by simp)

theorem report_creation {failure : Failure} (sound : thread.Sound)
    (failed : thread.worker = .creationFailed failure) : (thread.reportCreation failure).Sound := by
  have none := sound.unfailed (by simp [failed])
  constructor
  · simpa [reportCreation, failPending, completePending, -List.filterMap_map, List.filterMap_cons]
      using sound.counted
  · simpa [reportCreation, failPending, completePending, -List.filterMap_map, List.filterMap_cons,
      failed, WorkerPoint.submission] using sound.tickets.drain
  · simpa [reportCreation, failPending, completePending, -List.filterMap_map, List.filterMap_cons,
      failed, WorkerPoint.held] using sound.frames
  · have recorded : EachEvent RasterEvent.Follows (thread.log ++ [.failed failure]) :=
      sound.history.snoc (sound.unlogged none)
    apply history_completions recorded
    · simp
    · intro _ known
      have unlogged := sound.unlogged none known
      simp [unlogged, eq_comm]
  · intro known
    have unlogged := sound.unlogged none known
    simp [reportCreation, failPending, completePending, unlogged, eq_comm]
  · exact fun _ => rfl
  · exact fun _ => rfl
  · simpa [reportCreation, failPending, completePending, failed, WorkerPoint.submission] using
      sound.rendering
  · exact fun _ _ works => by cases works
  · exact fun _ settling => by cases settling

theorem take_submission {next : RasterThread} (sound : thread.Sound)
    (waiting : thread.worker = .waiting) (stepped : thread.takeSubmission = some next) :
    next.Sound := by
  unfold takeSubmission at stepped
  split at stepped
  case h_1 empty =>
    split at stepped
    case isTrue stopping =>
      cases stepped
      have none := sound.unfailed (by simp [waiting])
      constructor
      · exact sound.counted
      · simpa [waiting, WorkerPoint.submission] using sound.tickets
      · simpa [waiting, WorkerPoint.held] using sound.frames
      · exact sound.history
      · exact sound.failure
      · exact fun _ => rfl
      · exact fun _ => stopping
      · simpa [waiting, WorkerPoint.submission] using sound.rendering
      · exact fun _ _ works => by cases works
      · exact fun _ settling => by cases settling
    case isFalse => cases stepped
  case h_2 submission pending queued =>
    have none := sound.unfailed (by simp [waiting])
    have tickets := sound.tickets
    simp only [waiting, WorkerPoint.submission, queued, List.map_cons, Option.map_none] at tickets
    cases stepped
    constructor
    · simpa [List.filterMap_cons] using sound.counted
    · have taken := tickets.take
      split <;> simpa [List.filterMap_cons, WorkerPoint.submission] using taken
    · have frames := sound.frames
      rw [waiting] at frames
      split <;> simpa [List.filterMap_cons, WorkerPoint.held] using frames
    · apply sound.history.snoc
      intro earlier begun
      have completed := tickets.begun_completed
        (List.mem_filterMap.mpr ⟨.started earlier, begun, rfl⟩)
      obtain ⟨event, member, completes⟩ := List.mem_filterMap.mp completed
      cases event <;> simp at completes
      subst completes
      exact ⟨_, member⟩
    · simpa using sound.failure
    · simp [none]
    · intro exited
      split at exited <;> cases exited
    · split <;> rfl
    · intro _ _ works
      split at works <;> cases works
    · intro _ settling
      split at settling <;> cases settling

/-- The worker moves behind events of its frame, none of which completes anything. -/
theorem advance {point : WorkerPoint} {frames : Nat} {events : List RasterEvent}
    (sound : thread.Sound) (going : thread.worker ≠ .exited) (unexited : point ≠ .exited)
    (submission : point.submission = thread.worker.submission)
    (own : ∀ event ∈ events, event.acquisition.isSome ∨ event.ending.isSome)
    (placed : FramesEnded (acquiredFrames (thread.log ++ events))
      (endedFrames (thread.log ++ events)) frames point.held)
    (owned : ∀ frame submission, point.frame = some (frame, submission) →
      .acquired frame submission.ticket ∈ thread.log ++ events)
    (shown : ∀ submission, point = .settling submission .presented →
      ∃ frame, .acquired frame submission.ticket ∈ thread.log ++ events ∧
        .frameEnded frame (.presented .presented) ∈ thread.log ++ events) :
    RasterThread.Sound { thread with worker := point, frames, log := thread.log ++ events } := by
  have frameOnly : ∀ event ∈ events, (∃ frame ticket, event = .acquired frame ticket) ∨
      ∃ frame how, event = .frameEnded frame how := by
    intro event member
    have own := own event member
    cases event <;> simp at own ⊢
  have other : ∀ kind : RasterEvent → Option Nat, (∀ frame ticket, kind (.acquired frame ticket) =
      none) → (∀ frame how, kind (.frameEnded frame how) = none) → events.filterMap kind = [] := by
    intro kind acquired ended
    rw [List.filterMap_eq_nil_iff]
    intro event member
    obtain ⟨frame, ticket, rfl⟩ | ⟨frame, how, rfl⟩ := frameOnly event member
    · exact acquired frame ticket
    · exact ended frame how
  have submissions := other RasterEvent.submission (fun _ _ => rfl) (fun _ _ => rfl)
  have starts := other RasterEvent.start (fun _ _ => rfl) (fun _ _ => rfl)
  have completions := other RasterEvent.completion (fun _ _ => rfl) (fun _ _ => rfl)
  constructor
  · simpa [submissions] using sound.counted
  · simpa [submissions, starts, completions, submission] using sound.tickets
  · exact placed
  · apply sound.history.append
    rintro before event after rfl
    obtain ⟨frame, ticket, rfl⟩ | ⟨frame, how, rfl⟩ := frameOnly event (by simp)
    · trivial
    · trivial
  · intro failure
    have unfailed : .failed failure ∉ events := by
      intro member
      obtain ⟨_, _, same⟩ | ⟨_, _, same⟩ := frameOnly _ member <;> cases same
    simpa [unfailed] using sound.failure failure
  · simp [sound.unfailed going]
  · exact fun exited => absurd exited unexited
  · simpa only [submission] using sound.rendering
  · exact owned
  · exact shown

/-- An acquisition that is not rejected has an active frame, or is no ready one. -/
theorem accepted_cases {acquisition : SurfaceAcquisition} {request : SurfaceRequest}
    (accepted : acquisition.rejected request = none) :
    (acquisition.status = .ready ∧ ∃ frame, acquisition.frame = some frame ∧ frame.ended = none) ∨
      (acquisition.status ≠ .ready ∧ acquisition.frame = none) := by
  unfold SurfaceAcquisition.rejected at accepted
  split at accepted
  case isTrue failed =>
    split at accepted
    · cases accepted
    · exact .inr ⟨failed, by simpa using ‹¬ acquisition.frame.isSome = true›⟩
  case isFalse ready =>
    split at accepted
    · cases accepted
    · split at accepted
      · cases accepted
      · rename_i frame found active
        exact .inl ⟨by simpa using ready, frame, found, by simpa using active⟩

theorem surface_returns {submission : Submission} (sound : thread.Sound)
    (acquiring : thread.worker = .acquiring submission)
    (returned : Except Failure SurfaceAcquisition) :
    (thread.surfaceReturns submission returned).Sound := by
  have frames := sound.frames
  simp only [acquiring, WorkerPoint.held] at frames
  unfold surfaceReturns
  split
  case h_1 failure =>
    exact sound.move (by simp [acquiring]) (by simp [acquiring, WorkerPoint.submission])
      (by simp [acquiring, WorkerPoint.held]) (.inl rfl) (by simp) (by simp)
  case h_2 acquisition =>
    dsimp only
    split
    case h_1 failure rejected =>
      apply sound.advance (by simp [acquiring]) (by simp)
        (by simp [acquiring, WorkerPoint.submission]) _ _ (fun _ _ works => by cases works)
        (fun _ settling => by cases settling)
      · cases acquisition.frame with
        | none => simp
        | some frame => cases ended : frame.ended <;> simp [frameEvents, destroyFrame, ended]
      · have finished := frames.hold.finish
        cases acquisition.frame with
        | none => simpa [WorkerPoint.held] using frames
        | some frame =>
          cases ended : frame.ended <;>
            simpa [frameEvents, destroyFrame, ended, List.filterMap_cons, WorkerPoint.held] using
              finished
    case h_2 accepted =>
      obtain ⟨ready, frame, found, active⟩ | ⟨unready, found⟩ := accepted_cases accepted
      · simp only [ready, found, acquired, Option.elim_some, frameEvents, active, Option.map_none,
          Option.toList_none, Option.isSome_some, if_true]
        apply sound.advance (by simp [acquiring]) (by simp)
          (by simp [acquiring, WorkerPoint.submission]) (by simp) _ _
          (fun _ settling => by cases settling)
        · simpa [List.filterMap_cons, WorkerPoint.held] using frames.hold
        · rintro _ _ ⟨⟩
          simp
      · simp only [found, Option.elim_none, List.append_nil, Option.isSome_none, Bool.false_eq_true,
          if_false]
        cases status : acquisition.status with
        | ready => exact absurd status unready
        | _ =>
          exact sound.move (by simp [acquiring])
            (by simp [acquiring, RasterThread.acquired, WorkerPoint.submission])
            (by simp [acquiring, RasterThread.acquired, WorkerPoint.held]) (.inl rfl)
            (by simp [RasterThread.acquired]) (by simp [RasterThread.acquired])

theorem renderer_ends {submission : Submission} {frame : Nat} {active : Bool}
    (sound : thread.Sound) (rendering : thread.worker = .rendering submission frame active)
    (how : FrameEnd) : (thread.rendererEnds submission frame active how).Sound := by
  have frames := sound.frames
  have owned := sound.owned frame submission (by rw [rendering]; rfl)
  simp only [rendering] at frames
  apply sound.advance (by simp [rendering]) (by simp)
    (by simp [rendering, WorkerPoint.submission]) _ _ _ (fun _ settling => by cases settling)
  · cases active <;> simp
  · cases active with
    | true => simpa [List.filterMap_cons, WorkerPoint.held] using frames.finish
    | false => simpa [WorkerPoint.held] using frames
  · rintro _ _ ⟨⟩
    exact List.mem_append_left _ owned

theorem renderer_returns {submission : Submission} {frame : Nat} {active : Bool}
    (sound : thread.Sound) (rendering : thread.worker = .rendering submission frame active)
    (raised : Option Failure) :
    (thread.rendererReturns submission frame active raised).Sound := by
  have frames := sound.frames
  have owned := sound.owned frame submission (by rw [rendering]; rfl)
  simp only [rendering] at frames
  unfold rendererReturns
  split
  case h_1 failure =>
    apply sound.advance (by simp [rendering]) (by simp)
      (by simp [rendering, WorkerPoint.submission]) _ _ (fun _ _ works => by cases works)
      (fun _ settling => by cases settling)
    · cases active <;> simp [destroyFrame]
    · cases active with
      | true => simpa [destroyFrame, List.filterMap_cons, WorkerPoint.held] using frames.finish
      | false => simpa [destroyFrame, WorkerPoint.held] using frames
  case h_2 =>
    cases active with
    | true =>
      exact sound.move (by simp [rendering]) (by simp [rendering, WorkerPoint.submission])
        (by simp [rendering, WorkerPoint.held])
        (.inr (by simp [rendering, WorkerPoint.frame])) (by simp) (by simp)
    | false =>
      exact sound.move (by simp [rendering]) (by simp [rendering, WorkerPoint.submission])
        (by simp [rendering, WorkerPoint.held]) (.inl rfl) (by simp) (by simp)

theorem present_returns {submission : Submission} {frame : Nat} (sound : thread.Sound)
    (presenting : thread.worker = .presenting submission frame) (status : Surface.PresentStatus) :
    (thread.presentReturns submission frame status).Sound := by
  have frames := sound.frames
  have owned := sound.owned frame submission (by rw [presenting]; rfl)
  simp only [presenting, WorkerPoint.held] at frames
  apply sound.advance (by simp [presenting]) _ _ (by simp)
  · cases status <;> simpa [List.filterMap_cons, WorkerPoint.held] using frames.finish
  · intro _ _ works
    cases status <;> cases works
  · intro own settling
    cases status with
    | presented =>
      cases settling
      exact ⟨frame, List.mem_append_left _ owned, by simp⟩
    | outOfDate => cases settling
    | lost => cases settling
  · cases status <;> simp
  · cases status <;> simp [presenting, WorkerPoint.submission]

theorem settle {submission : Submission} {outcome : FrameOutcome} (sound : thread.Sound)
    (settling : thread.worker = .settling submission outcome) :
    (thread.settle submission outcome).Sound := by
  have none := sound.unfailed (by simp [settling])
  have tickets := sound.tickets
  have frames := sound.frames
  simp only [settling, WorkerPoint.submission, Option.map_some] at tickets
  simp only [settling, WorkerPoint.held] at frames
  constructor
  · simpa [RasterThread.settle, List.filterMap_cons] using sound.counted
  · simpa [RasterThread.settle, List.filterMap_cons, WorkerPoint.submission] using tickets.complete
  · simpa [RasterThread.settle, List.filterMap_cons, WorkerPoint.held] using frames
  · apply sound.history.snoc
    refine ⟨?_, fun failure => ?_⟩
    · intro presented
      obtain rfl : outcome = .presented := Except.ok.inj presented
      exact sound.shown submission settling
    · simp [sound.unlogged none failure]
  · simpa [RasterThread.settle] using sound.failure
  · intro failed
    simp [RasterThread.settle, none] at failed
  · exact fun exited => by cases exited
  · rfl
  · exact fun _ _ works => by cases works
  · exact fun _ settling => by cases settling

theorem fail {submission : Submission} {raised : Failure} (sound : thread.Sound)
    (failing : thread.worker = .failing submission raised) :
    (thread.fail submission raised).Sound := by
  have none := sound.unfailed (by simp [failing])
  have tickets := sound.tickets
  have frames := sound.frames
  simp only [failing, WorkerPoint.submission, Option.map_some] at tickets
  simp only [failing, WorkerPoint.held] at frames
  constructor
  · simpa [RasterThread.fail, failPending, completePending, -List.filterMap_map,
      List.filterMap_cons] using sound.counted
  · simpa [RasterThread.fail, failPending, completePending, -List.filterMap_map,
      List.filterMap_cons, WorkerPoint.submission] using tickets.complete.drain
  · simpa [RasterThread.fail, failPending, completePending, -List.filterMap_map,
      List.filterMap_cons, WorkerPoint.held] using frames
  · have recorded : EachEvent RasterEvent.Follows (thread.log ++ [.failed raised]) :=
      sound.history.snoc (sound.unlogged none)
    have unlogged := sound.unlogged none
    have completed : EachEvent RasterEvent.Follows (thread.log ++ [.failed raised] ++
        [.completed submission.ticket (.error raised)]) := by
      apply recorded.snoc
      exact ⟨by simp, fun known => by simp [unlogged known, eq_comm]⟩
    have drained := history_completions completed thread.state.pending
      (by simp : (.error raised : Except Failure FrameOutcome) ≠ .ok .presented)
      (fun _ known => by simp [unlogged known, eq_comm])
    simpa [RasterThread.fail, failPending, completePending, none] using drained
  · intro known
    have unlogged := sound.unlogged none known
    simp [RasterThread.fail, failPending, completePending, unlogged, none, eq_comm]
  · exact fun _ => rfl
  · exact fun _ => rfl
  · rfl
  · exact fun _ _ works => by cases works
  · exact fun _ settling => by cases settling

theorem step {next : RasterThread} {action : Action} (sound : thread.Sound)
    (stepped : thread.step action = some next) : next.Sound := by
  cases action with
  | submit layerTree request =>
    cases stepped
    exact sound.submit layerTree request
  | requestStop =>
    cases stepped
    exact sound.request_stop
  | factoryReturns renderer =>
    simp only [RasterThread.step] at stepped
    split at stepped <;> cases stepped
    exact sound.factory_returns ‹_› renderer
  | surfaceReturns returned =>
    simp only [RasterThread.step] at stepped
    split at stepped <;> cases stepped
    exact sound.surface_returns ‹_› returned
  | rendererEnds how =>
    simp only [RasterThread.step] at stepped
    split at stepped <;> cases stepped
    exact sound.renderer_ends ‹_› how
  | rendererReturns raised =>
    simp only [RasterThread.step] at stepped
    split at stepped <;> cases stepped
    exact sound.renderer_returns ‹_› raised
  | presentReturns status =>
    simp only [RasterThread.step] at stepped
    split at stepped <;> cases stepped
    exact sound.present_returns ‹_› status
  | work =>
    simp only [RasterThread.step] at stepped
    split at stepped
    case h_1 failed =>
      cases stepped
      exact sound.report_creation failed
    case h_2 waiting => exact sound.take_submission waiting stepped
    case h_3 settling =>
      cases stepped
      exact sound.settle settling
    case h_4 failing =>
      cases stepped
      exact sound.fail failing
    case h_5 => cases stepped

theorem start : RasterThread.Sound {} := by
  constructor
  · rfl
  · exact ⟨rfl, rfl, Nat.le_refl _, rfl, fun _ => rfl⟩
  · exact ⟨rfl, fun _ => rfl⟩
  · exact each_event_nil
  · simp
  · simp
  · simp
  · rfl
  · exact fun _ _ works => by cases works
  · exact fun _ settling => by cases settling

theorem of_reachable (reached : Reachable rasterMachine thread) : thread.Sound := by
  apply Reaches.invariant RasterThread.Sound _ _ reached
  · rintro _ rfl
    exact start
  · exact fun _ _ _ sound _ stepped => sound.step stepped

end RasterThread.Sound

/-- A worker that has exited keeps nobody waiting. -/
theorem exited_idle {thread : RasterThread} (reached : Reachable rasterMachine thread)
    (exited : thread.worker = .exited) : (waitIdle thread.state).isSome := by
  have sound := RasterThread.Sound.of_reachable reached
  have queued := sound.tickets.queued
  rw [sound.exited exited, if_pos rfl, List.map_eq_nil_iff] at queued
  have idle : thread.state.rendering = false := by
    rw [sound.rendering, exited]
    rfl
  simp [waitIdle, queued, idle]

/-- What is counted as pending is every ticket that has not been completed. -/
theorem pending_count_exact {thread : RasterThread} (reached : Reachable rasterMachine thread) :
    (completedTickets thread.log).length + pendingCount thread.state = thread.tickets := by
  have sound := RasterThread.Sound.of_reachable reached
  have placed : (completedTickets thread.log ++ (thread.state.pending.map Submission.ticket ++
      (thread.worker.submission.map Submission.ticket).toList)).Perm
      (submittedTickets thread.log) := by
    rw [List.perm_iff_count]
    intro ticket
    rw [List.count_append, List.count_append, ← Nat.add_assoc]
    exact sound.tickets.placed ticket
  have total := placed.length_eq
  rw [List.length_append, List.length_append, List.length_map, ← sound.counted] at total
  rw [← total, pendingCount, sound.rendering]
  cases thread.worker.submission <;> simp

/-- Raster tickets, numbered in the order of their submission. Each is completed at most
once, and has been when the worker has exited. Work is begun in that order, when all
work begun before is complete. A ticket reports a presented frame only when a frame
acquired for it was. Each frame acquired is ended at most once, and has been when the
worker has exited. Once a failure is recorded, whatever is completed reports it, every
ticket left is, and every submission with valid arguments is refused with it. -/
theorem raster_tickets_complete_once {thread : RasterThread}
    (reached : Reachable rasterMachine thread) :
    submittedTickets thread.log = List.range thread.tickets ∧
    (∀ ticket, (completedTickets thread.log).count ticket ≤ 1) ∧
    (thread.worker = .exited → ∀ ticket < thread.tickets,
      (completedTickets thread.log).count ticket = 1) ∧
    startedTickets thread.log <+: submittedTickets thread.log ∧
    (∀ before ticket after, thread.log = before ++ .started ticket :: after →
      startedTickets before ⊆ completedTickets before) ∧
    (∀ before ticket after, thread.log = before ++ .completed ticket (.ok .presented) :: after →
      ∃ frame, .acquired frame ticket ∈ before ∧
        .frameEnded frame (.presented .presented) ∈ before) ∧
    (∀ frame, (acquiredFrames thread.log).count frame ≤ 1 ∧
      (endedFrames thread.log).count frame ≤ (acquiredFrames thread.log).count frame) ∧
    (thread.worker = .exited → ∀ frame ∈ acquiredFrames thread.log,
      (endedFrames thread.log).count frame = 1) ∧
    (∀ before failure after, thread.log = before ++ .failed failure :: after →
      (∀ ticket result, .completed ticket result ∈ after → result = .error failure) ∧
      (∀ ticket ∈ submittedTickets before, ticket ∉ completedTickets before →
        .completed ticket (.error failure) ∈ after) ∧
      (∀ layerTree request raised, .refused layerTree request raised ∈ after →
        checkSubmission layerTree request = none → raised = failure) ∧
      submittedTickets after = []) := by
  have sound := RasterThread.Sound.of_reachable reached
  have once := sound.tickets.submitted_once
  have frameOnce : (acquiredFrames thread.log).Nodup := by
    rw [sound.frames.numbered]
    exact List.nodup_range
  have completedOnce : thread.worker = .exited → ∀ ticket < thread.tickets,
      (completedTickets thread.log).count ticket = 1 := by
    intro exited ticket known
    have queued := sound.tickets.queued
    rw [sound.exited exited, if_pos rfl] at queued
    have placed := sound.tickets.placed ticket
    rw [once ticket, ← sound.counted, if_pos known, queued, exited] at placed
    simpa [WorkerPoint.submission] using placed
  refine ⟨?_, ?_, completedOnce, ?_, ?_, ?_, ?_, ?_, ?_⟩
  · rw [sound.counted]
    exact sound.tickets.numbered
  · intro ticket
    have placed := sound.tickets.placed ticket
    rw [once ticket] at placed
    split at placed <;> omega
  · rw [sound.tickets.begun, sound.tickets.numbered]
    obtain ⟨left, whole⟩ := Nat.exists_eq_add_of_le sound.tickets.within
    rw [whole, List.range_eq_range', List.range_eq_range', ← List.range'_append_1]
    exact List.prefix_append _ _
  · intro before ticket after whole earlier begun
    obtain ⟨event, member, starts⟩ := List.mem_filterMap.mp begun
    cases event <;> simp at starts
    subst starts
    obtain ⟨result, completed⟩ := sound.history before _ after whole _ member
    exact List.mem_filterMap.mpr ⟨_, completed, rfl⟩
  · intro before ticket after whole
    exact (sound.history before _ after whole).1 rfl
  · intro frame
    have placed := sound.frames.placed frame
    exact ⟨List.nodup_iff_count_le_one.mp frameOnce frame, by omega⟩
  · intro exited frame acquired
    have placed := sound.frames.placed frame
    rw [List.count_eq_one_of_mem frameOnce acquired, exited] at placed
    simpa [WorkerPoint.held] using placed
  · intro before failure after whole
    have follows : ∀ event ∈ after, ∃ earlier, .failed failure ∈ earlier ∧
        RasterEvent.Follows earlier event := by
      intro event member
      obtain ⟨early, late, rfl⟩ := List.append_of_mem member
      refine ⟨before ++ .failed failure :: early, by simp, sound.history _ event late ?_⟩
      simpa using whole
    have reports : ∀ ticket result, .completed ticket result ∈ after → result = .error failure := by
      intro ticket result member
      obtain ⟨earlier, failed, follows⟩ := follows _ member
      exact (follows.2 failure).mp failed
    have exited : thread.worker = .exited := by
      apply sound.terminal
      have recorded := (sound.failure failure).mp (by simp [whole])
      simp [recorded]
    refine ⟨reports, ?_, ?_, ?_⟩
    · intro ticket submitted uncompleted
      have known : ticket < thread.tickets := by
        have member : ticket ∈ submittedTickets thread.log := by
          rw [whole, submittedTickets, List.filterMap_append]
          exact List.mem_append_left _ submitted
        rw [sound.tickets.numbered, ← sound.counted] at member
        exact List.mem_range.mp member
      have completed : ticket ∈ completedTickets thread.log :=
        List.count_pos_iff.mp (by rw [completedOnce exited ticket known]; exact Nat.one_pos)
      have later : ticket ∈ completedTickets after := by
        rw [whole, completedTickets, List.filterMap_append, List.mem_append,
          List.filterMap_cons] at completed
        exact completed.resolve_left uncompleted
      obtain ⟨event, member, completes⟩ := List.mem_filterMap.mp later
      cases event <;> simp at completes
      subst completes
      obtain rfl := reports _ _ member
      exact member
    · intro layerTree request raised member valid
      obtain ⟨earlier, failed, follows⟩ := follows _ member
      exact follows valid failure failed
    · rw [submittedTickets, List.filterMap_eq_nil_iff]
      intro event member
      obtain ⟨earlier, failed, follows⟩ := follows event member
      cases event with
      | submitted ticket => exact absurd failed (follows failure)
      | _ => rfl

/-- The factory throws, and a caller then submits an empty layer tree. -/
def emptySubmission : List RasterThread.Action :=
  [.factoryReturns (.error (.runtimeError "device")), .work, .submit ⟨false, {}⟩ {}]

/-- What the caller is told is not the failure. -/
theorem empty_submission_reports_itself :
    ¬ ∀ thread, Reachable rasterMachine thread → ∀ before failure after,
      thread.log = before ++ .failed failure :: after →
      ∀ layerTree request raised, .refused layerTree request raised ∈ after → raised = failure := by
  intro claimed
  have ran : rasterMachine.run {} emptySubmission = some
      { state := { failure := some (.runtimeError "device"), stopping := true }
        worker := .exited
        log := [.failed (.runtimeError "device"), .refused ⟨false, {}⟩ {}
          (.invalidArgument "RasterThread cannot submit an empty LayerTree")] } := by rfl
  have same := claimed _ (Reachable.run (.start rfl) ran) [] _ _ rfl _ _ _ List.mem_cons_self
  cases same

/-- A frame is presented while two more are submitted; the surface is lost as the
second is presented. -/
def lostSurface : List RasterThread.Action :=
  let layerTree : LayerTree := ⟨true, ⟨10, 20⟩⟩
  let request : SurfaceRequest := ⟨⟨10, 20⟩, 10, 20, 1, 1⟩
  let acquired : Except Failure SurfaceAcquisition := .ok ⟨.ready, some ⟨⟨10, 20, 1⟩, none⟩⟩
  [.submit layerTree request, .factoryReturns (.ok true), .work, .surfaceReturns acquired,
    .submit layerTree request, .rendererReturns none, .submit layerTree request,
    .presentReturns .presented, .work, .work, .surfaceReturns acquired, .rendererReturns none,
    .presentReturns .lost, .work, .submit layerTree request]

/-- The third ticket is completed, once. -/
theorem lost_surface_completes_once :
    ∃ thread, rasterMachine.run {} lostSurface = some thread ∧
      (completedTickets thread.log).count 2 = 1 := by
  have observed : (rasterMachine.run {} lostSurface).map (fun thread =>
      (thread.worker, thread.tickets)) = some (.exited, 3) := by decide +kernel
  obtain ⟨thread, ran, seen⟩ := Option.map_eq_some_iff.mp observed
  simp only [Prod.mk.injEq] at seen
  obtain ⟨exited, tickets⟩ := seen
  have once := raster_tickets_complete_once (Reachable.run (.start rfl) ran)
  exact ⟨thread, ran, once.2.2.1 exited 2 (by rw [tickets]; exact Nat.lt_succ_self 2)⟩

end Dui
