import Mathlib.Data.List.Sort
import Dui.Foundation
import Dui.RingBuffer
import Dui.Transition

/-! The timeline recorder: spans that were begun come back finished, the latest of them
are retained in a ring, and readers follow the order of completion with cursors. -/
namespace Dui

inductive TimelineLane where
  | ui
  | raster
  deriving DecidableEq, Repr, Inhabited

inductive TimelinePhase where
  | reconcile
  | build
  | frame
  | synchronizeRenderTree
  | layout
  | lazyRealization
  | composite
  | rasterFrame
  | surfaceAcquire
  | rasterize
  | surfacePresent
  deriving DecidableEq, Repr, Inhabited

inductive TimelineOutcome where
  | completed
  | unavailable
  | outOfDate
  | lost
  | failed
  deriving DecidableEq, Repr, Inhabited

structure TimelineEvent where
  sequence : Nat := 0
  spanId : Nat := 0
  parentSpanId : Nat := 0
  frameId : Nat := 0
  lane : TimelineLane := .ui
  phase : TimelinePhase := .reconcile
  outcome : TimelineOutcome := .completed
  start : Int := 0
  duration : Int := 0
  pass : Nat := 0
  workCount : Nat := 0
  flowId : Nat := 0
  deriving DecidableEq, Repr, Inhabited

/-- `TimelineRecorder::Impl`. The ring holds the slots of `events_` and of
`completion_positions_`, which are always written together. -/
structure TimelineRecorder where
  ring : RingBuffer (TimelineEvent × Nat)
  flowToken : Nat
  droppedEventCount : Nat := 0
  nextSequence : Nat := 1
  nextSpanId : Nat := 1
  nextCompletionPosition : Nat := 1
  retentionFloor : Nat := 1
  completionPositionsExhausted : Bool := false

structure TimelineCursor where
  recorderToken : Option Nat := none
  nextCompletionPosition : Nat := 0
  deriving DecidableEq, Repr

/-- The position a cursor stands for; the default cursor stands at the first event. -/
def TimelineCursor.position (cursor : TimelineCursor) : Nat :=
  if cursor.nextCompletionPosition = 0 then 1 else cursor.nextCompletionPosition

structure TimelineBatch where
  events : List TimelineEvent
  nextCursor : TimelineCursor
  missedEventCount : Nat
  deriving DecidableEq, Repr

/-- `next_nonzero` on a 64-bit counter: the value given out, and the counter after it. -/
def nextNonzero (value : Nat) : Nat × Nat :=
  if value = 0 then (1, 2) else (value, if value = maxGeneration then 0 else value + 1)

namespace TimelineRecorder

/-- The constructor. The token is told apart from that of every other recorder. -/
def create (capacity : Nat) (hasClock : Bool) (flowToken : Nat) :
    Except Failure TimelineRecorder :=
  if capacity = 0 then .error (.invalidArgument "TimelineRecorder capacity must be positive")
  else if ¬ hasClock then .error (.invalidArgument "TimelineRecorder requires a clock")
  else .ok { ring := { slots := fun _ => default, capacity }, flowToken }

/-- `begin`, with what the clock shows. -/
def beginEvent (recorder : TimelineRecorder) (lane : TimelineLane) (phase : TimelinePhase)
    (parentSpanId frameId flowId pass workCount : Nat) (start : Int) :
    TimelineEvent × TimelineRecorder :=
  let (sequence, nextSequence) := nextNonzero recorder.nextSequence
  let (spanId, nextSpanId) := nextNonzero recorder.nextSpanId
  ({ sequence, spanId, parentSpanId, frameId, lane, phase, start, pass, workCount, flowId },
    { recorder with nextSequence, nextSpanId })

/-- The event that `finish` records, with what the clock shows. -/
def finished (event : TimelineEvent) (outcome : TimelineOutcome) (now : Int) : TimelineEvent :=
  { event with outcome, duration := if event.start ≤ now then now - event.start else 0 }

/-- The section of `finish`. -/
def finish (recorder : TimelineRecorder) (event : TimelineEvent) : TimelineRecorder :=
  let position := recorder.nextCompletionPosition
  let recorder :=
    if position = maxGeneration then { recorder with completionPositionsExhausted := true }
    else { recorder with nextCompletionPosition := position + 1 }
  let ring := recorder.ring.push (event, position)
  if recorder.ring.count < recorder.ring.capacity then { recorder with ring }
  else
    { recorder with
      ring
      retentionFloor := position - recorder.ring.count + 1
      droppedEventCount := recorder.droppedEventCount + 1 }

/-- The retained events in the order of completion, with their positions. -/
def retained (recorder : TimelineRecorder) : List (TimelineEvent × Nat) := recorder.ring.contents

/-- `snapshot`. -/
def snapshot (recorder : TimelineRecorder) : List TimelineEvent × Nat :=
  ((recorder.retained.map (·.1)).insertionSort (·.sequence ≤ ·.sequence),
    recorder.droppedEventCount)

/-- The loop of `read_completed`: the events taken so far and the position behind them. -/
def readLoop (maxEvents available : Nat) :
    List (TimelineEvent × Nat) → List TimelineEvent × Nat → List TimelineEvent × Nat
  | [], result => result
  | (event, position) :: rest, (events, next) =>
    if events.length < maxEvents then
      if position < available then readLoop maxEvents available rest (events, next)
      else readLoop maxEvents available rest (events ++ [event], position + 1)
    else (events, next)

/-- `read_completed`. -/
def readCompleted (recorder : TimelineRecorder) (maxEvents : Nat) (cursor : TimelineCursor) :
    Except Failure TimelineBatch :=
  if cursor.nextCompletionPosition ≠ 0 ∧ cursor.recorderToken ≠ some recorder.flowToken then
    .error (.invalidArgument "Timeline cursor belongs to a different recorder")
  else if maxEvents = 0 then
    .error (.invalidArgument "Timeline incremental read limit must be positive")
  else if recorder.completionPositionsExhausted then
    .error (.overflowError "Timeline incremental completion positions are exhausted")
  else if recorder.nextCompletionPosition < cursor.position then
    .error (.invalidArgument "Timeline cursor is ahead of the recorder")
  else
    let available := max cursor.position recorder.retentionFloor
    let (events, next) := readLoop maxEvents available recorder.retained ([], available)
    .ok ⟨events, ⟨some recorder.flowToken, next⟩, available - cursor.position⟩

/-- `clear`. -/
def clear (recorder : TimelineRecorder) : TimelineRecorder :=
  { recorder with
    ring := recorder.ring.clear
    droppedEventCount := 0
    retentionFloor := recorder.nextCompletionPosition }

end TimelineRecorder

/-- A reader: its cursor, what it has received, and what was reported to it as missed. -/
structure TimelineReader where
  cursor : TimelineCursor := {}
  received : List TimelineEvent := []
  missed : Nat := 0

/-- A recorder, every event finished so far in the order of completion, and its readers. -/
structure TimelineSystem where
  recorder : TimelineRecorder
  completed : List TimelineEvent := []
  readers : Nat → TimelineReader := fun _ => {}

namespace TimelineSystem

inductive Action where
  | begin (lane : TimelineLane) (phase : TimelinePhase)
      (parentSpanId frameId flowId pass workCount : Nat) (start : Int)
  | finish (event : TimelineEvent) (outcome : TimelineOutcome) (now : Int)
  | clear
  | read (reader maxEvents : Nat)

/-- A reader follows the cursor it is given; a read that throws gives it nothing. -/
def step (system : TimelineSystem) : Action → TimelineSystem
  | .begin lane phase parentSpanId frameId flowId pass workCount start =>
    { system with
      recorder := (system.recorder.beginEvent lane phase parentSpanId frameId flowId pass workCount
        start).2 }
  | .finish event outcome now =>
    let event := TimelineRecorder.finished event outcome now
    { system with
      recorder := system.recorder.finish event, completed := system.completed ++ [event] }
  | .clear => { system with recorder := system.recorder.clear }
  | .read reader maxEvents =>
    match system.recorder.readCompleted maxEvents (system.readers reader).cursor with
    | .error _ => system
    | .ok batch =>
      { system with
        readers := fun other => if other = reader then
            { cursor := batch.nextCursor
              received := (system.readers reader).received ++ batch.events
              missed := (system.readers reader).missed + batch.missedEventCount }
          else system.readers other }

end TimelineSystem

/-- A recorder from its construction on, with any number of readers. -/
def timelineMachine : Transition.Machine TimelineSystem TimelineSystem.Action where
  init system := ∃ capacity hasClock flowToken recorder,
    TimelineRecorder.create capacity hasClock flowToken = .ok recorder ∧ system = { recorder }
  step system action := some (system.step action)

end Dui
