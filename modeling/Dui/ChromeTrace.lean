import Dui.JsonText
import Dui.Timeline

/-!
# The Chrome trace of a timeline

`TimelineSnapshot::to_chrome_trace_json`. Times are 64-bit counts of nanoseconds whose
differences are taken modulo `2^64`; the trace gives them in microseconds, with the
fraction and the hexadecimal flow ids written digit by digit.
-/

namespace Dui

/-- What an enumeration holds: one of its values, or any other number. -/
inductive Stored (α : Type) where
  | known (value : α)
  | unknown (value : Int)
  deriving DecidableEq, Repr

/-- `TimelineEvent` as it is stored, with 64-bit fields. -/
structure StoredEvent where
  sequence : UInt64 := 0
  spanId : UInt64 := 0
  parentSpanId : UInt64 := 0
  frameId : UInt64 := 0
  lane : Stored TimelineLane := .known .ui
  phase : Stored TimelinePhase := .known .reconcile
  outcome : Stored TimelineOutcome := .known .completed
  start : Int64 := 0
  duration : Int64 := 0
  pass : UInt64 := 0
  workCount : UInt64 := 0
  flowId : UInt64 := 0
  deriving DecidableEq

/-- `TimelineSnapshot`. -/
structure TimelineSnapshot where
  events : List StoredEvent := []
  droppedEventCount : UInt64 := 0

def timelineLaneName : Stored TimelineLane → Except Failure String
  | .known .ui => .ok "ui"
  | .known .raster => .ok "raster"
  | .unknown _ => .error (.invalidArgument "Timeline event has an unknown lane")

def timelinePhaseName : Stored TimelinePhase → Except Failure String
  | .known .reconcile => .ok "reconcile"
  | .known .build => .ok "build"
  | .known .frame => .ok "frame"
  | .known .synchronizeRenderTree => .ok "synchronizeRenderTree"
  | .known .layout => .ok "layout"
  | .known .lazyRealization => .ok "lazyRealization"
  | .known .composite => .ok "composite"
  | .known .rasterFrame => .ok "rasterFrame"
  | .known .surfaceAcquire => .ok "surfaceAcquire"
  | .known .rasterize => .ok "rasterize"
  | .known .surfacePresent => .ok "surfacePresent"
  | .unknown _ => .error (.invalidArgument "Timeline event has an unknown phase")

def timelineOutcomeName : Stored TimelineOutcome → Except Failure String
  | .known .completed => .ok "completed"
  | .known .unavailable => .ok "unavailable"
  | .known .outOfDate => .ok "outOfDate"
  | .known .lost => .ok "lost"
  | .known .failed => .ok "failed"
  | .unknown _ => .error (.invalidArgument "Timeline event has an unknown outcome")

def validateTimelineEvent (event : StoredEvent) : Except Failure Unit := do
  let _ ← timelineLaneName event.lane
  let _ ← timelinePhaseName event.phase
  let _ ← timelineOutcomeName event.outcome
  if event.duration < 0 then
    .error (.invalidArgument "Timeline event duration cannot be negative")
  else .ok ()

/-- `maximum_trace_nanoseconds`. -/
def maximumTraceNanoseconds : UInt64 := ((1 : UInt64) <<< 50) - 1

def traceRelativeNanoseconds (value origin : Int64) : Except Failure UInt64 :=
  let relative := value.toUInt64 - origin.toUInt64
  if relative > maximumTraceNanoseconds then
    .error (.invalidArgument "Chrome trace relative timestamp exceeds the exact range")
  else .ok relative

def traceDurationNanoseconds (value : Int64) : Except Failure UInt64 :=
  let duration := value.toUInt64
  if duration > maximumTraceNanoseconds then
    .error (.invalidArgument "Chrome trace duration exceeds the exact range")
  else .ok duration

/-- An integer as a stream prints it. -/
def decimal (value : Nat) : List UInt8 :=
  (Nat.toDigits 10 value).map fun digit => UInt8.ofNat digit.toNat

def decimalSigned (value : Int) : List UInt8 :=
  if value < 0 then 0x2d :: decimal value.natAbs else decimal value.natAbs

/-- A single digit, added to the character `0`. -/
def traceDigit (value : UInt64) : UInt8 := UInt8.ofNat (0x30 + value.toNat)

/-- What `append_trace_microseconds` appends. -/
def appendTraceMicroseconds (nanoseconds : UInt64) : List UInt8 :=
  let fraction := nanoseconds % 1000
  decimal (nanoseconds / 1000).toNat ++
    if fraction ≠ 0 then
      [0x2e, traceDigit (fraction / 100), traceDigit (fraction / 10 % 10),
        traceDigit (fraction % 10)]
    else []

/-- The loop of `append_trace_flow_id`, with the digits written so far; `none` is a
digit written in front of the array. -/
def flowDigits : Nat → UInt64 → List UInt8 → Option (List UInt8)
  | room, flowId, digits =>
    if flowId = 0 then some digits
    else
      match room with
      | 0 => none
      | room + 1 => flowDigits room (flowId >>> 4) (hexDigit (flowId &&& 0xf).toNat :: digits)

/-- What `append_trace_flow_id` appends, with its array of 16 digits. -/
def appendTraceFlowId (flowId : UInt64) : Option (List UInt8) :=
  (flowDigits 16 flowId []).map (ascii "0x" ++ ·)

namespace StoredEvent

def startsFlow (event : StoredEvent) : Bool :=
  event.flowId ≠ 0 ∧ event.parentSpanId = 0 ∧ event.lane = .known .ui ∧
    event.phase = .known .frame

def finishesFlow (event : StoredEvent) : Bool :=
  event.flowId ≠ 0 ∧ event.parentSpanId = 0 ∧ event.lane = .known .raster ∧
    event.phase = .known .rasterFrame

end StoredEvent

/-- The origin: the earliest start, or zero. -/
def traceOrigin : List StoredEvent → Int64
  | [] => 0
  | first :: rest =>
    rest.foldl (fun origin event => if event.start < origin then event.start else origin)
      first.start

/-- The complete event of a span. -/
def traceSpan (event : StoredEvent) (origin : Int64) : Except Failure (List UInt8) := do
  let lane ← timelineLaneName event.lane
  let phase ← timelinePhaseName event.phase
  let relative ← traceRelativeNanoseconds event.start origin
  let duration ← traceDurationNanoseconds event.duration
  let outcome ← timelineOutcomeName event.outcome
  return ascii ",\x7b\"name\":" ++ appendJsonString (ascii phase) ++
    ascii ",\"cat\":\"dui." ++ ascii lane ++ ascii "\",\"ph\":\"X\",\"ts\":" ++
    appendTraceMicroseconds relative ++ ascii ",\"dur\":" ++ appendTraceMicroseconds duration ++
    ascii ",\"pid\":1,\"tid\":" ++ decimal (if event.lane = .known .ui then 1 else 2) ++
    ascii ",\"args\":\x7b\"outcome\":" ++ appendJsonString (ascii outcome) ++
    ascii ",\"sequence\":\"" ++ decimal event.sequence.toNat ++
    ascii "\",\"spanId\":\"" ++ decimal event.spanId.toNat ++
    ascii "\",\"parentSpanId\":\"" ++ decimal event.parentSpanId.toNat ++
    ascii "\",\"frameId\":\"" ++ decimal event.frameId.toNat ++
    ascii "\",\"pass\":" ++ decimal event.pass.toNat ++
    ascii ",\"workCount\":" ++ decimal event.workCount.toNat ++
    ascii ",\"flowId\":\"" ++ decimal event.flowId.toNat ++ ascii "\"\x7d\x7d"

/-- The flow event of a span that starts or finishes a flow. -/
def traceFlow (event : StoredEvent) (origin : Int64) : Except Failure (List UInt8) :=
  if event.startsFlow ∨ event.finishesFlow then do
    let relative ← traceRelativeNanoseconds event.start origin
    match appendTraceFlowId event.flowId with
    | none => .error (.logicError "append_trace_flow_id")
    | some flowId =>
      return ascii ",\x7b\"name\":\"uiToRaster\",\"cat\":\"dui.flow\",\"ph\":\"" ++
        ascii (if event.startsFlow then "s" else "f") ++ ascii "\",\"ts\":" ++
        appendTraceMicroseconds relative ++ ascii ",\"pid\":1,\"tid\":" ++
        decimal (if event.startsFlow then 1 else 2) ++ ascii ",\"id\":\"" ++ flowId ++
        ascii "\",\"scope\":\"dui\",\"bp\":\"e\"\x7d"
  else return []

/-- What the loop writes for an event. -/
def traceEvent (event : StoredEvent) (origin : Int64) : Except Failure (List UInt8) := do
  let span ← traceSpan event origin
  let flow ← traceFlow event origin
  return span ++ flow

def traceHead : List UInt8 :=
  ascii "\x7b\"traceEvents\":[" ++
    ascii "\x7b\"name\":\"thread_name\",\"ph\":\"M\",\"pid\":1,\"tid\":1,\"args\":" ++
    ascii "\x7b\"name\":\"DUI UI\"\x7d\x7d," ++
    ascii "\x7b\"name\":\"thread_name\",\"ph\":\"M\",\"pid\":1,\"tid\":2,\"args\":" ++
    ascii "\x7b\"name\":\"DUI Raster\"\x7d\x7d"

/-- What the first loop asks of an event. -/
def checkTraceEvent (event : StoredEvent) (origin : Int64) : Except Failure Unit := do
  validateTimelineEvent event
  let _ ← traceRelativeNanoseconds event.start origin
  let _ ← traceDurationNanoseconds event.duration

/-- `TimelineSnapshot::to_chrome_trace_json`. -/
def TimelineSnapshot.toChromeTraceJson (snapshot : TimelineSnapshot) :
    Except Failure (List UInt8) := do
  let origin := traceOrigin snapshot.events
  snapshot.events.forM (checkTraceEvent · origin)
  let events ← snapshot.events.mapM (traceEvent · origin)
  return traceHead ++ events.flatten ++
    ascii "],\"displayTimeUnit\":\"ns\",\"duiDroppedEventCount\":" ++
    decimal snapshot.droppedEventCount.toNat ++
    ascii ",\"duiTimeOriginNs\":\"" ++ decimalSigned origin.toInt ++ ascii "\"\x7d"

end Dui
