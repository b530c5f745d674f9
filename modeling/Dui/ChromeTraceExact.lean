import Dui.ChromeTraceReads

/-!
# Exact times in a Chrome trace

What the reader finds in the trace of a timeline: every time as the exact distance from
the earliest start, and every flow id as hexadecimal digits of its value. The export is
refused for an unknown name and for a time out of the exact range, and for nothing else.
-/

namespace Dui

/-! ### What the trace says -/

/-- A member after the first of an object. -/
def memberTokens (name : String) (value : JsonToken) : List JsonToken :=
  [.mark 0x2c, .string (ascii name), .mark 0x3a, value]

/-- The tokens of a span, with its times in exact microseconds. -/
def spanTokens (event : StoredEvent) (lane phase outcome : String) (relative : Int) :
    List JsonToken :=
  [JsonToken.mark 0x2c, .mark 0x7b, .string (ascii "name"), .mark 0x3a, .string (ascii phase)] ++
    memberTokens "cat" (.string (ascii "dui." ++ ascii lane)) ++
    memberTokens "ph" (.string (ascii "X")) ++
    memberTokens "ts" (.number (relative / 1000)) ++
    memberTokens "dur" (.number (event.duration.toInt / 1000)) ++
    memberTokens "pid" (.number 1) ++
    memberTokens "tid" (.number (if event.lane = .known .ui then 1 else 2)) ++
    [JsonToken.mark 0x2c, .string (ascii "args"), .mark 0x3a, .mark 0x7b, .string (ascii "outcome"),
      .mark 0x3a, .string (ascii outcome)] ++
    memberTokens "sequence" (.string (decimal event.sequence.toNat)) ++
    memberTokens "spanId" (.string (decimal event.spanId.toNat)) ++
    memberTokens "parentSpanId" (.string (decimal event.parentSpanId.toNat)) ++
    memberTokens "frameId" (.string (decimal event.frameId.toNat)) ++
    memberTokens "pass" (.number event.pass.toNat) ++
    memberTokens "workCount" (.number event.workCount.toNat) ++
    memberTokens "flowId" (.string (decimal event.flowId.toNat)) ++
    [JsonToken.mark 0x7d, .mark 0x7d]

/-- The tokens of a flow event. -/
def flowTokens (event : StoredEvent) (relative : Int) (flowId : List UInt8) : List JsonToken :=
  [JsonToken.mark 0x2c, .mark 0x7b, .string (ascii "name"), .mark 0x3a,
      .string (ascii "uiToRaster")] ++
    memberTokens "cat" (.string (ascii "dui.flow")) ++
    memberTokens "ph" (.string (ascii (if event.startsFlow then "s" else "f"))) ++
    memberTokens "ts" (.number (relative / 1000)) ++
    memberTokens "pid" (.number 1) ++
    memberTokens "tid" (.number (if event.startsFlow then 1 else 2)) ++
    memberTokens "id" (.string flowId) ++
    memberTokens "scope" (.string (ascii "dui")) ++
    memberTokens "bp" (.string (ascii "e")) ++ [JsonToken.mark 0x7d]

/-- The tokens say what the event is: its times exactly, and its flow id in
hexadecimal. -/
def StoredEvent.Told (event : StoredEvent) (origin : Int) (tokens : List JsonToken) : Prop :=
  ∃ lane phase outcome flowId, timelineLaneName event.lane = .ok lane ∧
    timelinePhaseName event.phase = .ok phase ∧
    timelineOutcomeName event.outcome = .ok outcome ∧
    tokens = spanTokens event lane phase outcome (event.start.toInt - origin) ++
      (if event.startsFlow ∨ event.finishesFlow then
        flowTokens event (event.start.toInt - origin) flowId
      else []) ∧
    (event.flowId ≠ 0 → readHexadecimal flowId = some event.flowId.toNat)

/-- The tokens in front of the events. -/
def headTokens : List JsonToken :=
  let thread (tid : ℚ) (name : String) : List JsonToken :=
    [JsonToken.mark 0x7b, .string (ascii "name"), .mark 0x3a, .string (ascii "thread_name")] ++
      memberTokens "ph" (.string (ascii "M")) ++ memberTokens "pid" (.number 1) ++
      memberTokens "tid" (.number tid) ++
      [JsonToken.mark 0x2c, .string (ascii "args"), .mark 0x3a, .mark 0x7b, .string (ascii "name"),
        .mark 0x3a, .string (ascii name), .mark 0x7d, .mark 0x7d]
  [JsonToken.mark 0x7b, .string (ascii "traceEvents"), .mark 0x3a, .mark 0x5b] ++
    thread 1 "DUI UI" ++ [JsonToken.mark 0x2c] ++ thread 2 "DUI Raster"

/-- The tokens after the events. -/
def tailTokens (dropped : Nat) (origin : Int) : List JsonToken :=
  [JsonToken.mark 0x5d] ++ memberTokens "displayTimeUnit" (.string (ascii "ns")) ++
    memberTokens "duiDroppedEventCount" (.number dropped) ++
    memberTokens "duiTimeOriginNs" (.string (decimalSigned origin)) ++ [JsonToken.mark 0x7d]

/-! ### The text of an event in pieces -/

theorem json_turn_plain {byte : UInt8} (plain : PlainByte byte) (rest : List UInt8) :
    jsonTurn byte rest = ([byte], rest) := by
  obtain ⟨printable, low, notQuote, notBackslash⟩ := plain
  have notHigh : ¬ 0x80 ≤ byte := by
    rw [UInt8.le_iff_toNat_le]
    exact not_le.mpr low
  have other : ∀ control : UInt8, control.toNat < 0x20 → byte ≠ control := by
    rintro control small rfl
    omega
  have notControl : ¬ byte < 0x20 := by
    rw [UInt8.lt_iff_toNat_lt]
    exact not_lt.mpr printable
  unfold jsonTurn escapeCharacter
  rw [if_neg notHigh, if_neg notQuote, if_neg notBackslash, if_neg (other 0x08 (by decide)),
    if_neg (other 0x0c (by decide)), if_neg (other 0x0a (by decide)),
    if_neg (other 0x0d (by decide)), if_neg (other 0x09 (by decide)), if_neg notControl]

/-- Plain bytes are written as they are. -/
theorem json_turns_plain {bytes : List UInt8} (plain : ∀ byte ∈ bytes, PlainByte byte) :
    jsonTurns bytes.length bytes = bytes := by
  induction bytes with
  | nil => rfl
  | cons byte rest ih =>
    have turn := json_turn_plain (plain byte List.mem_cons_self) rest
    rw [List.length_cons, jsonTurns, turn]
    dsimp only
    rw [ih fun other member => plain other (List.mem_cons_of_mem _ member)]
    rfl

theorem json_string_plain {bytes : List UInt8} (plain : ∀ byte ∈ bytes, PlainByte byte) :
    appendJsonString bytes = JsonPiece.text (.string bytes) := by
  unfold appendJsonString
  rw [json_turns_plain plain]
  rfl

theorem ascii_plain {text : String}
    (plain : (ascii text).all (fun byte => PlainByte byte) = true) :
    ∀ byte ∈ ascii text, PlainByte byte :=
  fun byte member => of_decide_eq_true (List.all_eq_true.mp plain byte member)

/-- A member after the first of an object. -/
def memberPieces (name : String) (value : JsonPiece) : List JsonPiece :=
  [.mark 0x2c, .string (ascii name), .mark 0x3a, value]

theorem member_readable {name : String} {value : JsonPiece}
    (plain : ∀ byte ∈ ascii name, PlainByte byte) (readable : ReadablePieces [value]) :
    ReadablePieces (memberPieces name value) :=
  .mark (by decide) (.string plain (.mark (by decide) readable))

theorem led_mark {byte : UInt8} (mark : byte ∈ jsonMarks) (rest : List JsonPiece) :
    LedByMark (.mark byte :: rest) := by
  intro piece first
  exact ⟨byte, mark, (Option.some.inj first).symm⟩

theorem member_led (name : String) (value : JsonPiece) : LedByMark (memberPieces name value) :=
  led_mark (by decide) _

theorem ReadablePieces.member {pieces : List JsonPiece} {name : String} {value : JsonPiece}
    (readable : ReadablePieces pieces) (plain : ∀ byte ∈ ascii name, PlainByte byte)
    (own : ReadablePieces [value]) : ReadablePieces (pieces ++ memberPieces name value) :=
  readable.append (member_led name value) (member_readable plain own)

theorem readable_number {text : List UInt8} {value : ℚ} (reads : ReadsNumber text value) :
    ReadablePieces [.number text value] :=
  .number reads (fun _ first => absurd first (Option.not_mem_none _)) .nil

theorem readable_string {bytes : List UInt8} (plain : ∀ byte ∈ bytes, PlainByte byte) :
    ReadablePieces [.string bytes] :=
  .string plain .nil

theorem readable_ascii {text : String}
    (plain : (ascii text).all (fun byte => PlainByte byte) = true) :
    ReadablePieces [.string (ascii text)] :=
  readable_string (ascii_plain plain)

theorem decimal_plain (value : Nat) : ∀ byte ∈ decimal value, PlainByte byte := by
  intro byte member
  have digit := (decimal_spec value).all byte member
  simp only [isDigit, decide_eq_true_eq] at digit
  refine ⟨by omega, by omega, ?_, ?_⟩
  · rintro rfl
    simp at digit
  · rintro rfl
    simp at digit

/-- The pieces of a span. -/
def spanPieces (event : StoredEvent) (lane phase outcome : String) (relative : UInt64)
    (distance : Int) : List JsonPiece :=
  [JsonPiece.mark 0x2c, .mark 0x7b, .string (ascii "name"), .mark 0x3a, .string (ascii phase)] ++
    memberPieces "cat" (.string (ascii "dui." ++ ascii lane)) ++
    memberPieces "ph" (.string (ascii "X")) ++
    memberPieces "ts" (.number (appendTraceMicroseconds relative) (distance / 1000)) ++
    memberPieces "dur" (.number (appendTraceMicroseconds event.duration.toUInt64)
      (event.duration.toInt / 1000)) ++
    memberPieces "pid" (.number [0x31] 1) ++
    memberPieces "tid" (.number (decimal (if event.lane = .known .ui then 1 else 2))
      (if event.lane = .known .ui then 1 else 2)) ++
    [JsonPiece.mark 0x2c, .string (ascii "args"), .mark 0x3a, .mark 0x7b, .string (ascii "outcome"),
      .mark 0x3a, .string (ascii outcome)] ++
    memberPieces "sequence" (.string (decimal event.sequence.toNat)) ++
    memberPieces "spanId" (.string (decimal event.spanId.toNat)) ++
    memberPieces "parentSpanId" (.string (decimal event.parentSpanId.toNat)) ++
    memberPieces "frameId" (.string (decimal event.frameId.toNat)) ++
    memberPieces "pass" (.number (decimal event.pass.toNat) event.pass.toNat) ++
    memberPieces "workCount" (.number (decimal event.workCount.toNat) event.workCount.toNat) ++
    memberPieces "flowId" (.string (decimal event.flowId.toNat)) ++
    [JsonPiece.mark 0x7d, .mark 0x7d]

theorem span_opens (event : StoredEvent) (lane phase outcome : String) (relative : UInt64)
    (distance : Int) :
    ∃ more, spanPieces event lane phase outcome relative distance = .mark 0x2c :: more := by
  unfold spanPieces
  simp only [List.cons_append]
  exact ⟨_, rfl⟩

theorem member_tokens (name : String) (value : JsonPiece) :
    (memberPieces name value).map JsonPiece.token = memberTokens name value.token := rfl

theorem span_pieces_tokens (event : StoredEvent) (lane phase outcome : String)
    (relative : UInt64) (distance : Int) :
    (spanPieces event lane phase outcome relative distance).map JsonPiece.token =
      spanTokens event lane phase outcome distance := by
  unfold spanPieces spanTokens
  simp only [List.map_append, member_tokens, List.map_cons,
    List.map_nil, JsonPiece.token]

theorem member_text (name : String) (value : JsonPiece) :
    (memberPieces name value).flatMap JsonPiece.text =
      0x2c :: 0x22 :: ascii name ++ 0x22 :: 0x3a :: value.text := by
  simp [memberPieces, JsonPiece.text]

set_option maxRecDepth 8000 in
theorem trace_span_pieces {event : StoredEvent} {origin : Int64} {lane phase outcome : String}
    {relative : UInt64} (distance : Int) (laneName : timelineLaneName event.lane = .ok lane)
    (phaseName : timelinePhaseName event.phase = .ok phase)
    (outcomeName : timelineOutcomeName event.outcome = .ok outcome)
    (inRange : traceRelativeNanoseconds event.start origin = .ok relative)
    (duration : traceDurationNanoseconds event.duration = .ok event.duration.toUInt64)
    (phasePlain : ∀ byte ∈ ascii phase, PlainByte byte)
    (outcomePlain : ∀ byte ∈ ascii outcome, PlainByte byte) :
    traceSpan event origin = .ok
      ((spanPieces event lane phase outcome relative distance).flatMap JsonPiece.text) := by
  unfold traceSpan
  rw [laneName, phaseName, outcomeName, inRange, duration]
  simp only [bind, Except.bind, pure, Except.pure]
  rw [json_string_plain phasePlain, json_string_plain outcomePlain]
  apply congrArg Except.ok
  unfold spanPieces
  simp only [List.flatMap_append, member_text, List.flatMap_cons, List.flatMap_nil, JsonPiece.text,
    List.append_assoc, List.cons_append, List.nil_append, List.append_nil]
  rfl

theorem names_plain {event : StoredEvent} {lane phase outcome : String}
    (laneName : timelineLaneName event.lane = .ok lane)
    (phaseName : timelinePhaseName event.phase = .ok phase)
    (outcomeName : timelineOutcomeName event.outcome = .ok outcome) :
    (∀ byte ∈ ascii lane, PlainByte byte) ∧ (∀ byte ∈ ascii phase, PlainByte byte) ∧
      ∀ byte ∈ ascii outcome, PlainByte byte := by
  constructor
  · cases known : event.lane with
    | unknown value => rw [known] at laneName; cases laneName
    | known value =>
      rw [known] at laneName
      cases value <;> cases laneName <;> exact ascii_plain (by decide)
  constructor
  · cases known : event.phase with
    | unknown value => rw [known] at phaseName; cases phaseName
    | known value =>
      rw [known] at phaseName
      cases value <;> cases phaseName <;> exact ascii_plain (by decide)
  · cases known : event.outcome with
    | unknown value => rw [known] at outcomeName; cases outcomeName
    | known value =>
      rw [known] at outcomeName
      cases value <;> cases outcomeName <;> exact ascii_plain (by decide)

theorem span_readable {event : StoredEvent} {lane phase outcome : String} {relative : UInt64}
    (lanePlain : ∀ byte ∈ ascii lane, PlainByte byte)
    (phasePlain : ∀ byte ∈ ascii phase, PlainByte byte)
    (outcomePlain : ∀ byte ∈ ascii outcome, PlainByte byte) {distance : Int}
    (time : ReadsNumber (appendTraceMicroseconds relative) (distance / 1000))
    (length : ReadsNumber (appendTraceMicroseconds event.duration.toUInt64)
      (event.duration.toInt / 1000)) :
    ReadablePieces (spanPieces event lane phase outcome relative distance) := by
  have one : ReadsNumber [0x31] 1 := reads_decimal 1
  have thread : ReadsNumber (decimal (if event.lane = .known .ui then 1 else 2))
      (if event.lane = .known .ui then 1 else 2) := by
    split_ifs
    · exact reads_decimal 1
    · exact reads_decimal 2
  have prefixPlain : ∀ byte ∈ ascii "dui.", PlainByte byte := ascii_plain (by decide)
  have category : ∀ byte ∈ ascii "dui." ++ ascii lane, PlainByte byte := by
    intro byte member
    obtain front | rest := List.mem_append.mp member
    · exact prefixPlain byte front
    · exact lanePlain byte rest
  have opening : ReadablePieces
      [.mark 0x2c, .mark 0x7b, .string (ascii "name"), .mark 0x3a, .string (ascii phase)] :=
    .mark (by decide) (.mark (by decide) (.string (ascii_plain (by decide))
      (.mark (by decide) (readable_string phasePlain))))
  have arguments : ReadablePieces [.mark 0x2c, .string (ascii "args"), .mark 0x3a, .mark 0x7b,
      .string (ascii "outcome"), .mark 0x3a, .string (ascii outcome)] :=
    .mark (by decide) (.string (ascii_plain (by decide)) (.mark (by decide) (.mark (by decide)
      (.string (ascii_plain (by decide)) (.mark (by decide) (readable_string outcomePlain))))))
  have closing : ReadablePieces [.mark 0x7d, .mark 0x7d] :=
    .mark (by decide) (.mark (by decide) .nil)
  have argumentsLed : LedByMark [.mark 0x2c, .string (ascii "args"), .mark 0x3a, .mark 0x7b,
      .string (ascii "outcome"), .mark 0x3a, .string (ascii outcome)] := led_mark (by decide) _
  unfold spanPieces
  apply ReadablePieces.append _ (led_mark (by decide) _) closing
  apply ReadablePieces.member _ (ascii_plain (by decide)) (readable_string (decimal_plain _))
  apply ReadablePieces.member _ (ascii_plain (by decide)) (readable_number (reads_decimal _))
  apply ReadablePieces.member _ (ascii_plain (by decide)) (readable_number (reads_decimal _))
  apply ReadablePieces.member _ (ascii_plain (by decide)) (readable_string (decimal_plain _))
  apply ReadablePieces.member _ (ascii_plain (by decide)) (readable_string (decimal_plain _))
  apply ReadablePieces.member _ (ascii_plain (by decide)) (readable_string (decimal_plain _))
  apply ReadablePieces.member _ (ascii_plain (by decide)) (readable_string (decimal_plain _))
  apply ReadablePieces.append _ argumentsLed arguments
  apply ReadablePieces.member _ (ascii_plain (by decide)) (readable_number thread)
  apply ReadablePieces.member _ (ascii_plain (by decide)) (readable_number one)
  apply ReadablePieces.member _ (ascii_plain (by decide)) (readable_number length)
  apply ReadablePieces.member _ (ascii_plain (by decide)) (readable_number time)
  apply ReadablePieces.member _ (ascii_plain (by decide)) (readable_ascii (by decide))
  apply ReadablePieces.member opening (ascii_plain (by decide)) (readable_string category)

/-! ### Flow ids -/

/-- A turn of the reader of hexadecimal digits. -/
def readDigit (value : Nat) (digit : UInt8) : Option Nat := do
  let digit ← hexValue (asciiChar digit)
  some (value * 16 + digit)

theorem hex_digit_plain {value : Nat} (small : value < 16) : PlainByte (hexDigit value) := by
  have all : ∀ value < 16, PlainByte (hexDigit value) := by decide
  exact all value small

theorem flow_nibble (flowId : UInt64) :
    (flowId &&& 0xf).toNat = flowId.toNat % 16 ∧ (flowId >>> 4).toNat = flowId.toNat / 16 := by
  constructor
  · rw [UInt64.toNat_and]
    exact Nat.and_two_pow_sub_one_eq_mod flowId.toNat 4
  · rw [UInt64.toNat_shiftRight]
    exact Nat.shiftRight_eq_div_pow flowId.toNat 4

/-- The loop writes digits of the id's value, and has room for them. -/
theorem flow_digits_read (room : Nat) : ∀ {flowId : UInt64} (digits : List UInt8),
    flowId.toNat < 16 ^ room → ∃ front, flowDigits room flowId digits = some (front ++ digits) ∧
      (flowId ≠ 0 → front ≠ []) ∧ (∀ byte ∈ front, PlainByte byte) ∧
      front.foldlM readDigit 0 = some flowId.toNat := by
  induction room with
  | zero =>
    intro flowId digits small
    have zero : flowId = 0 := by
      apply UInt64.toNat_inj.mp
      rw [pow_zero] at small
      exact Nat.lt_one_iff.mp small
    apply Exists.intro []
    rw [zero]
    exact ⟨rfl, fun nonzero => absurd rfl nonzero, nofun, rfl⟩
  | succ room ih =>
    intro flowId digits small
    by_cases zero : flowId = 0
    · apply Exists.intro []
      rw [zero]
      exact ⟨rfl, fun nonzero => absurd rfl nonzero, nofun, rfl⟩
    · obtain ⟨nibble, rest⟩ := flow_nibble flowId
      have digit : (flowId &&& 0xf).toNat < 16 := by omega
      obtain ⟨front, written, -, plain, reads⟩ :=
        @ih (flowId >>> 4) (hexDigit (flowId &&& 0xf).toNat :: digits) (by
          rw [rest]
          exact Nat.div_lt_of_lt_mul (by rw [← pow_succ']; exact small))
      refine ⟨front ++ [hexDigit (flowId &&& 0xf).toNat], ?_, by simp, ?_, ?_⟩
      · rw [flowDigits, if_neg zero]
        rw [written, List.append_assoc]
        rfl
      · intro byte member
        obtain before | last := List.mem_append.mp member
        · exact plain byte before
        · rw [List.mem_singleton.mp last]
          exact hex_digit_plain digit
      · rw [List.foldlM_append, reads, Option.bind_eq_bind, Option.bind_some, List.foldlM_cons]
        simp only [readDigit, hex_digit_value digit, Option.bind_eq_bind, Option.bind_some,
          List.foldlM_nil, Option.pure_def]
        apply congrArg some
        omega

/-- The flow id is read back. -/
theorem flow_id_reads {flowId : UInt64} (nonzero : flowId ≠ 0) :
    ∃ text, appendTraceFlowId flowId = some text ∧ (∀ byte ∈ text, PlainByte byte) ∧
      readHexadecimal text = some flowId.toNat := by
  obtain ⟨front, written, nonempty, plain, reads⟩ :=
    @flow_digits_read 16 flowId [] flowId.toNat_lt
  rw [List.append_nil] at written
  apply Exists.intro (ascii "0x" ++ front)
  constructor
  · unfold appendTraceFlowId
    rw [written]
    rfl
  constructor
  · intro byte member
    obtain before | digit := List.mem_append.mp member
    · have marks : ∀ byte ∈ ascii "0x", PlainByte byte := ascii_plain (by decide)
      exact marks byte before
    · exact plain byte digit
  · exact (if_neg (nonempty nonzero)).trans reads

/-! ### The flow event -/

def flowPieces (event : StoredEvent) (relative : UInt64) (distance : Int) (flowId : List UInt8) :
    List JsonPiece :=
  [JsonPiece.mark 0x2c, .mark 0x7b, .string (ascii "name"), .mark 0x3a,
      .string (ascii "uiToRaster")] ++
    memberPieces "cat" (.string (ascii "dui.flow")) ++
    memberPieces "ph" (.string (ascii (if event.startsFlow then "s" else "f"))) ++
    memberPieces "ts" (.number (appendTraceMicroseconds relative) (distance / 1000)) ++
    memberPieces "pid" (.number [0x31] 1) ++
    memberPieces "tid" (.number (decimal (if event.startsFlow then 1 else 2))
      (if event.startsFlow then 1 else 2)) ++
    memberPieces "id" (.string flowId) ++
    memberPieces "scope" (.string (ascii "dui")) ++
    memberPieces "bp" (.string (ascii "e")) ++ [JsonPiece.mark 0x7d]

theorem flow_opens (event : StoredEvent) (relative : UInt64) (distance : Int)
    (flowId : List UInt8) : ∃ more, flowPieces event relative distance flowId =
      .mark 0x2c :: more := by
  unfold flowPieces
  simp only [List.cons_append]
  exact ⟨_, rfl⟩

theorem flow_pieces_tokens (event : StoredEvent) (relative : UInt64) (distance : Int)
    (flowId : List UInt8) :
    (flowPieces event relative distance flowId).map JsonPiece.token =
      flowTokens event distance flowId := by
  unfold flowPieces flowTokens
  simp only [List.map_append, member_tokens, List.map_cons,
    List.map_nil, JsonPiece.token]

theorem flow_readable {event : StoredEvent} {relative : UInt64} {distance : Int}
    {flowId : List UInt8} (time : ReadsNumber (appendTraceMicroseconds relative) (distance / 1000))
    (plain : ∀ byte ∈ flowId, PlainByte byte) :
    ReadablePieces (flowPieces event relative distance flowId) := by
  have one : ReadsNumber [0x31] 1 := reads_decimal 1
  have thread : ReadsNumber (decimal (if event.startsFlow then 1 else 2))
      (if event.startsFlow then 1 else 2) := by
    split_ifs
    · exact reads_decimal 1
    · exact reads_decimal 2
  have phase : ∀ byte ∈ ascii (if event.startsFlow then "s" else "f"), PlainByte byte := by
    cases event.startsFlow <;> exact ascii_plain (by decide)
  have opening : ReadablePieces [.mark 0x2c, .mark 0x7b, .string (ascii "name"), .mark 0x3a,
      .string (ascii "uiToRaster")] :=
    .mark (by decide) (.mark (by decide) (.string (ascii_plain (by decide))
      (.mark (by decide) (readable_ascii (by decide)))))
  have closing : ReadablePieces [.mark 0x7d] := .mark (by decide) .nil
  unfold flowPieces
  apply ReadablePieces.append _ (led_mark (by decide) _) closing
  apply ReadablePieces.member _ (ascii_plain (by decide)) (readable_ascii (by decide))
  apply ReadablePieces.member _ (ascii_plain (by decide)) (readable_ascii (by decide))
  apply ReadablePieces.member _ (ascii_plain (by decide)) (readable_string plain)
  apply ReadablePieces.member _ (ascii_plain (by decide)) (readable_number thread)
  apply ReadablePieces.member _ (ascii_plain (by decide)) (readable_number one)
  apply ReadablePieces.member _ (ascii_plain (by decide)) (readable_number time)
  apply ReadablePieces.member _ (ascii_plain (by decide)) (readable_string phase)
  apply ReadablePieces.member opening (ascii_plain (by decide)) (readable_ascii (by decide))

set_option maxRecDepth 8000 in
theorem trace_flow_pieces {event : StoredEvent} {origin : Int64} {relative : UInt64}
    {flowId : List UInt8} (distance : Int) (flows : event.startsFlow ∨ event.finishesFlow)
    (inRange : traceRelativeNanoseconds event.start origin = .ok relative)
    (written : appendTraceFlowId event.flowId = some flowId) :
    traceFlow event origin = .ok
      ((flowPieces event relative distance flowId).flatMap JsonPiece.text) := by
  unfold traceFlow
  rw [if_pos flows, inRange]
  simp only [bind, Except.bind, pure, Except.pure, written]
  apply congrArg Except.ok
  unfold flowPieces
  simp only [List.flatMap_append, member_text, List.flatMap_cons, List.flatMap_nil, JsonPiece.text,
    List.append_assoc, List.cons_append, List.nil_append, List.append_nil]
  rfl

/-! ### Ranges -/

/-- A difference taken modulo `2^64` is the exact distance from an earlier start. -/
theorem relative_exact {value origin : Int64} (before : origin.toInt ≤ value.toInt) :
    ((value.toUInt64 - origin.toUInt64).toNat : Int) = value.toInt - origin.toInt := by
  have valueCases := BitVec.toInt_eq_toNat_cond value.toBitVec
  have originCases := BitVec.toInt_eq_toNat_cond origin.toBitVec
  have valueInt : value.toInt = value.toBitVec.toInt := rfl
  have originInt : origin.toInt = origin.toBitVec.toInt := rfl
  have valueNat : value.toUInt64.toNat = value.toBitVec.toNat := rfl
  have originNat : origin.toUInt64.toNat = origin.toBitVec.toNat := rfl
  have valueSmall := value.toBitVec.isLt
  have originSmall := origin.toBitVec.isLt
  rw [UInt64.toNat_sub]
  split_ifs at valueCases originCases <;> omega

theorem duration_exact {value : Int64} (positive : 0 ≤ value.toInt) :
    (value.toUInt64.toNat : Int) = value.toInt := by
  have same := @relative_exact value 0 positive
  have zero : value.toUInt64 - (0 : Int64).toUInt64 = value.toUInt64 :=
    UInt64.sub_zero _
  have origin : (0 : Int64).toInt = 0 := rfl
  rw [zero, origin, Int.sub_zero] at same
  exact same

theorem maximum_trace_value : maximumTraceNanoseconds.toNat = 2 ^ 50 - 1 := by decide

theorem trace_relative_iff {value origin : Int64} (before : origin.toInt ≤ value.toInt) :
    (traceRelativeNanoseconds value origin = .ok (value.toUInt64 - origin.toUInt64) ∧
      value.toInt - origin.toInt ≤ 2 ^ 50 - 1) ∨
    ((∃ failure, traceRelativeNanoseconds value origin = .error failure) ∧
      2 ^ 50 - 1 < value.toInt - origin.toInt) := by
  have same := relative_exact before
  have maximum := maximum_trace_value
  unfold traceRelativeNanoseconds
  dsimp only
  by_cases large : value.toUInt64 - origin.toUInt64 > maximumTraceNanoseconds
  · right
    rw [if_pos large]
    have more := UInt64.lt_iff_toNat_lt.mp large
    exact ⟨⟨_, rfl⟩, by omega⟩
  · left
    rw [if_neg large]
    have less := not_lt.mp fun more => large (UInt64.lt_iff_toNat_lt.mpr more)
    exact ⟨rfl, by omega⟩

theorem trace_duration_iff {value : Int64} (positive : 0 ≤ value.toInt) :
    (traceDurationNanoseconds value = .ok value.toUInt64 ∧ value.toInt ≤ 2 ^ 50 - 1) ∨
    ((∃ failure, traceDurationNanoseconds value = .error failure) ∧
      2 ^ 50 - 1 < value.toInt) := by
  have same := duration_exact positive
  have maximum := maximum_trace_value
  unfold traceDurationNanoseconds
  dsimp only
  by_cases large : value.toUInt64 > maximumTraceNanoseconds
  · right
    rw [if_pos large]
    have more := UInt64.lt_iff_toNat_lt.mp large
    exact ⟨⟨_, rfl⟩, by omega⟩
  · left
    rw [if_neg large]
    have less := not_lt.mp fun more => large (UInt64.lt_iff_toNat_lt.mpr more)
    exact ⟨rfl, by omega⟩

/-- The time of the earliest of the events, or zero. -/
structure IsOrigin (events : List StoredEvent) (origin : Int) : Prop where
  empty : events = [] → origin = 0
  attained : events ≠ [] → ∃ event ∈ events, event.start.toInt = origin
  least : ∀ event ∈ events, origin ≤ event.start.toInt

theorem trace_origin_spec (events : List StoredEvent) :
    IsOrigin events (traceOrigin events).toInt := by
  cases events with
  | nil =>
    exact ⟨fun _ => rfl, fun nonempty => absurd rfl nonempty,
      fun _ member => absurd member List.not_mem_nil⟩
  | cons first rest =>
    have folded : ∀ (more : List StoredEvent) (start : Int64),
        let last := more.foldl
          (fun origin event => if event.start < origin then event.start else origin) start
        (last = start ∨ ∃ event ∈ more, event.start = last) ∧ last.toInt ≤ start.toInt ∧
          ∀ event ∈ more, last.toInt ≤ event.start.toInt := by
      intro more
      induction more with
      | nil =>
        intro start
        exact ⟨.inl rfl, le_refl _, fun _ member => absurd member List.not_mem_nil⟩
      | cons event more ih =>
        intro start
        dsimp only [List.foldl_cons]
        by_cases earlier : event.start < start
        · rw [if_pos earlier]
          obtain ⟨attained, least, all⟩ := ih event.start
          have less := Int64.lt_iff_toInt_lt.mp earlier
          refine ⟨.inr ?_, by omega, ?_⟩
          · obtain same | ⟨other, member, same⟩ := attained
            · exact ⟨event, List.mem_cons_self, same.symm⟩
            · exact ⟨other, List.mem_cons_of_mem _ member, same⟩
          · intro other member
            obtain rfl | later := List.mem_cons.mp member
            · exact least
            · exact all other later
        · rw [if_neg earlier]
          obtain ⟨attained, least, all⟩ := ih start
          have notLess := not_lt.mp fun less => earlier (Int64.lt_iff_toInt_lt.mpr less)
          refine ⟨?_, least, ?_⟩
          · obtain same | ⟨other, member, same⟩ := attained
            · exact .inl same
            · exact .inr ⟨other, List.mem_cons_of_mem _ member, same⟩
          · intro other member
            obtain rfl | later := List.mem_cons.mp member
            · omega
            · exact all other later
    obtain ⟨attained, least, all⟩ := folded rest first.start
    constructor
    · nofun
    · intro _
      obtain same | ⟨event, member, same⟩ := attained
      · exact ⟨first, List.mem_cons_self, congrArg Int64.toInt same.symm⟩
      · exact ⟨event, List.mem_cons_of_mem _ member, congrArg Int64.toInt same⟩
    · intro event member
      obtain rfl | later := List.mem_cons.mp member
      · exact least
      · exact all event later

/-! ### The whole trace -/

/-- What the export rejects an event for. -/
def StoredEvent.Rejected (event : StoredEvent) (events : List StoredEvent) : Prop :=
  ((∃ value, event.lane = .unknown value) ∨ (∃ value, event.phase = .unknown value) ∨
      ∃ value, event.outcome = .unknown value) ∨
    event.duration.toInt < 0 ∨ 2 ^ 50 - 1 < event.duration.toInt ∨
    ∃ earliest ∈ events, (∀ other ∈ events, earliest.start.toInt ≤ other.start.toInt) ∧
      2 ^ 50 - 1 < event.start.toInt - earliest.start.toInt

/-- An event within range: its names, and its times. -/
structure Accepted (event : StoredEvent) (origin : Int64) (lane phase outcome : String) : Prop where
  lane : timelineLaneName event.lane = .ok lane
  phase : timelinePhaseName event.phase = .ok phase
  outcome : timelineOutcomeName event.outcome = .ok outcome
  positive : 0 ≤ event.duration.toInt
  duration : traceDurationNanoseconds event.duration = .ok event.duration.toUInt64
  relative : traceRelativeNanoseconds event.start origin =
    .ok (event.start.toUInt64 - origin.toUInt64)

theorem Accepted.known {event : StoredEvent} {origin : Int64} {lane phase outcome : String}
    (accepted : Accepted event origin lane phase outcome) :
    ¬ ((∃ value, event.lane = .unknown value) ∨ (∃ value, event.phase = .unknown value) ∨
      ∃ value, event.outcome = .unknown value) := by
  obtain ⟨laneName, phaseName, outcomeName, -⟩ := accepted
  rintro (⟨value, unknown⟩ | ⟨value, unknown⟩ | ⟨value, unknown⟩)
  · rw [unknown] at laneName
    cases laneName
  · rw [unknown] at phaseName
    cases phaseName
  · rw [unknown] at outcomeName
    cases outcomeName

theorem lane_named (lane : Stored TimelineLane) :
    (∃ value, lane = .unknown value) ∨ ∃ name, timelineLaneName lane = .ok name := by
  cases lane with
  | unknown value => exact .inl ⟨value, rfl⟩
  | known value => cases value <;> exact .inr ⟨_, rfl⟩

theorem phase_named (phase : Stored TimelinePhase) :
    (∃ value, phase = .unknown value) ∨ ∃ name, timelinePhaseName phase = .ok name := by
  cases phase with
  | unknown value => exact .inl ⟨value, rfl⟩
  | known value => cases value <;> exact .inr ⟨_, rfl⟩

theorem outcome_named (outcome : Stored TimelineOutcome) :
    (∃ value, outcome = .unknown value) ∨ ∃ name, timelineOutcomeName outcome = .ok name := by
  cases outcome with
  | unknown value => exact .inl ⟨value, rfl⟩
  | known value => cases value <;> exact .inr ⟨_, rfl⟩

/-- The first loop stops at an event that is rejected, and at no other. -/
theorem check_trace_event {event : StoredEvent} {origin : Int64}
    (before : origin.toInt ≤ event.start.toInt) :
    (checkTraceEvent event origin = .ok () ∧
      ∃ lane phase outcome, Accepted event origin lane phase outcome ∧
      event.duration.toInt ≤ 2 ^ 50 - 1 ∧ event.start.toInt - origin.toInt ≤ 2 ^ 50 - 1) ∨
    ((∃ failure, checkTraceEvent event origin = .error failure) ∧
      (((∃ value, event.lane = .unknown value) ∨ (∃ value, event.phase = .unknown value) ∨
          ∃ value, event.outcome = .unknown value) ∨
        event.duration.toInt < 0 ∨ 2 ^ 50 - 1 < event.duration.toInt ∨
        2 ^ 50 - 1 < event.start.toInt - origin.toInt)) := by
  unfold checkTraceEvent validateTimelineEvent
  simp only [bind, Except.bind]
  obtain ⟨value, unknown⟩ | ⟨lane, laneName⟩ := lane_named event.lane
  · right
    rw [unknown]
    exact ⟨⟨_, rfl⟩, .inl (.inl ⟨value, rfl⟩)⟩
  obtain ⟨value, unknown⟩ | ⟨phase, phaseName⟩ := phase_named event.phase
  · right
    rw [unknown, laneName]
    exact ⟨⟨_, rfl⟩, .inl (.inr (.inl ⟨value, rfl⟩))⟩
  obtain ⟨value, unknown⟩ | ⟨outcome, outcomeName⟩ := outcome_named event.outcome
  · right
    rw [unknown, laneName, phaseName]
    exact ⟨⟨_, rfl⟩, .inl (.inr (.inr ⟨value, rfl⟩))⟩
  rw [laneName, phaseName, outcomeName]
  dsimp only
  have zero : (0 : Int64).toInt = 0 := rfl
  by_cases negative : event.duration < 0
  · right
    rw [if_pos negative]
    have less := Int64.lt_iff_toInt_lt.mp negative
    exact ⟨⟨_, rfl⟩, .inr (.inl (by omega))⟩
  have positive : 0 ≤ event.duration.toInt :=
    not_lt.mp fun less => negative (Int64.lt_iff_toInt_lt.mpr less)
  rw [if_neg negative]
  obtain ⟨relative, near⟩ | ⟨⟨failure, failed⟩, far⟩ := trace_relative_iff before
  · obtain ⟨duration, short⟩ | ⟨⟨failure, failed⟩, long⟩ := trace_duration_iff positive
    · left
      rw [relative, duration]
      exact ⟨rfl, lane, phase, outcome,
        ⟨laneName, phaseName, outcomeName, positive, duration, relative⟩, short, near⟩
    · right
      rw [relative, failed]
      exact ⟨⟨_, rfl⟩, .inr (.inr (.inl long))⟩
  · right
    rw [failed]
    exact ⟨⟨_, rfl⟩, .inr (.inr (.inr far))⟩

/-- What the second loop writes for an accepted event is read as what tells the event. -/
theorem trace_event_told {event : StoredEvent} {origin : Int64} {lane phase outcome : String}
    (accepted : Accepted event origin lane phase outcome)
    (before : origin.toInt ≤ event.start.toInt) :
    ∃ pieces, traceEvent event origin = .ok (pieces.flatMap JsonPiece.text) ∧
      ReadablePieces pieces ∧ (∃ more, pieces = .mark 0x2c :: more) ∧
      event.Told origin.toInt (pieces.map JsonPiece.token) := by
  obtain ⟨lanePlain, phasePlain, outcomePlain⟩ :=
    names_plain accepted.lane accepted.phase accepted.outcome
  have time : ReadsNumber (appendTraceMicroseconds (event.start.toUInt64 - origin.toUInt64))
      ((event.start.toInt - origin.toInt : Int) / 1000) := by
    rw [← relative_exact before]
    exact reads_microseconds _
  have length : ReadsNumber (appendTraceMicroseconds event.duration.toUInt64)
      (event.duration.toInt / 1000) := by
    rw [← duration_exact accepted.positive]
    exact reads_microseconds _
  have span := trace_span_pieces (event.start.toInt - origin.toInt) accepted.lane accepted.phase
    accepted.outcome accepted.relative accepted.duration phasePlain outcomePlain
  have readable := span_readable lanePlain phasePlain outcomePlain time length
  have tokens := span_pieces_tokens event lane phase outcome
    (event.start.toUInt64 - origin.toUInt64) (event.start.toInt - origin.toInt)
  obtain ⟨more, opens⟩ := span_opens event lane phase outcome
    (event.start.toUInt64 - origin.toUInt64) (event.start.toInt - origin.toInt)
  by_cases flows : event.startsFlow ∨ event.finishesFlow
  · have nonzero : event.flowId ≠ 0 := by
      obtain starts | finishes := flows
      · exact (of_decide_eq_true starts).1
      · exact (of_decide_eq_true finishes).1
    obtain ⟨flowId, written, plain, reads⟩ := flow_id_reads nonzero
    have flow := trace_flow_pieces (event.start.toInt - origin.toInt) flows accepted.relative
      written
    have flowReadable : ReadablePieces (flowPieces event (event.start.toUInt64 - origin.toUInt64)
        (event.start.toInt - origin.toInt) flowId) := flow_readable time plain
    have flowLed : LedByMark (flowPieces event (event.start.toUInt64 - origin.toUInt64)
        (event.start.toInt - origin.toInt) flowId) := by
      obtain ⟨flowMore, flowOpens⟩ := flow_opens event (event.start.toUInt64 - origin.toUInt64)
        (event.start.toInt - origin.toInt) flowId
      rw [flowOpens]
      exact led_mark (by decide) _
    refine ⟨_, ?_, readable.append flowLed flowReadable, ?_, lane, phase, outcome, flowId,
      accepted.lane, accepted.phase, accepted.outcome, ?_, fun _ => reads⟩
    · unfold traceEvent
      rw [span, flow, List.flatMap_append]
      rfl
    · rw [opens]
      exact ⟨_, List.cons_append⟩
    · rw [List.map_append, tokens, flow_pieces_tokens, if_pos flows]
  · have flow : traceFlow event origin = .ok [] := if_neg flows
    obtain ⟨flowId, reads⟩ : ∃ flowId, event.flowId ≠ 0 →
        readHexadecimal flowId = some event.flowId.toNat := by
      by_cases nonzero : event.flowId ≠ 0
      · obtain ⟨flowId, _, _, reads⟩ := flow_id_reads nonzero
        exact ⟨flowId, fun _ => reads⟩
      · exact ⟨[], fun other => absurd other nonzero⟩
    refine ⟨_, ?_, readable, ⟨more, opens⟩, lane, phase, outcome, flowId,
      accepted.lane, accepted.phase, accepted.outcome, ?_, reads⟩
    · unfold traceEvent
      rw [span, flow]
      exact congrArg Except.ok (List.append_nil _)
    · rw [tokens, if_neg flows, List.append_nil]

/-- The first loop, over all events. -/
theorem check_all {events : List StoredEvent} {origin : Int64} :
    (events.forM (checkTraceEvent · origin) = .ok () ∧
      ∀ event ∈ events, checkTraceEvent event origin = .ok ()) ∨
    (∃ failure, events.forM (checkTraceEvent · origin) = .error failure) ∧
      ∃ event ∈ events, ∃ failure, checkTraceEvent event origin = .error failure := by
  induction events with
  | nil => exact .inl ⟨rfl, fun _ member => absurd member List.not_mem_nil⟩
  | cons event rest ih =>
    have step : (event :: rest).forM (checkTraceEvent · origin) =
        (checkTraceEvent event origin >>= fun _ => rest.forM (checkTraceEvent · origin)) := rfl
    rw [step]
    cases checked : checkTraceEvent event origin with
    | error failure =>
      right
      constructor
      · exact ⟨failure, rfl⟩
      · exact ⟨event, List.mem_cons_self, failure, checked⟩
    | ok done =>
      obtain ⟨all, each⟩ | ⟨failed, other, member, stopped⟩ := ih
      · left
        apply And.intro all
        intro other member
        obtain rfl | later := List.mem_cons.mp member
        · exact checked
        · exact each other later
      · exact .inr ⟨failed, other, List.mem_cons_of_mem _ member, stopped⟩

/-- The second loop, over accepted events. -/
theorem trace_events_told {events : List StoredEvent} {origin : Int64}
    (told : ∀ event ∈ events, ∃ pieces, traceEvent event origin =
        .ok (pieces.flatMap JsonPiece.text) ∧ ReadablePieces pieces ∧
        (∃ more, pieces = .mark 0x2c :: more) ∧
        event.Told origin.toInt (pieces.map JsonPiece.token)) :
    ∃ (texts : List (List UInt8)) (pieces : List JsonPiece) (tokens : List (List JsonToken)),
      events.mapM (traceEvent · origin) = .ok texts ∧
      texts.flatten = pieces.flatMap JsonPiece.text ∧ ReadablePieces pieces ∧ LedByMark pieces ∧
      pieces.map JsonPiece.token = tokens.flatten ∧
      List.Forall₂ (fun event tokens => event.Told origin.toInt tokens) events tokens := by
  induction events with
  | nil =>
    exact ⟨[], [], [], rfl, rfl, .nil, fun _ first => absurd first (Option.not_mem_none _), rfl,
      .nil⟩
  | cons event rest ih =>
    obtain ⟨own, written, readable, ⟨more, rfl⟩, tells⟩ := told event List.mem_cons_self
    obtain ⟨texts, pieces, tokens, mapped, flat, all, ledRest, tokensFlat, each⟩ :=
      ih fun other member => told other (List.mem_cons_of_mem _ member)
    refine ⟨(JsonPiece.mark 0x2c :: more).flatMap JsonPiece.text :: texts,
      .mark 0x2c :: more ++ pieces, _ :: tokens, ?_, ?_, readable.append ledRest all,
      led_mark (by decide) _, ?_, .cons tells each⟩
    · rw [List.mapM_cons, written, mapped]
      rfl
    · rw [List.flatten_cons, List.flatMap_append, flat]
    · rw [List.map_append, List.flatten_cons, tokensFlat]

/-! ### Around the events -/

def threadPieces (digits : List UInt8) (tid : ℚ) (name : String) : List JsonPiece :=
  [JsonPiece.mark 0x7b, .string (ascii "name"), .mark 0x3a, .string (ascii "thread_name")] ++
    memberPieces "ph" (.string (ascii "M")) ++ memberPieces "pid" (.number [0x31] 1) ++
    memberPieces "tid" (.number digits tid) ++
    [JsonPiece.mark 0x2c, .string (ascii "args"), .mark 0x3a, .mark 0x7b, .string (ascii "name"),
      .mark 0x3a, .string (ascii name), .mark 0x7d, .mark 0x7d]

def headPieces : List JsonPiece :=
  [JsonPiece.mark 0x7b, .string (ascii "traceEvents"), .mark 0x3a, .mark 0x5b] ++
    (threadPieces [0x31] 1 "DUI UI" ++ (JsonPiece.mark 0x2c :: threadPieces [0x32] 2 "DUI Raster"))

def tailPieces (dropped : Nat) (origin : Int) : List JsonPiece :=
  [JsonPiece.mark 0x5d] ++ memberPieces "displayTimeUnit" (.string (ascii "ns")) ++
    memberPieces "duiDroppedEventCount" (.number (decimal dropped) dropped) ++
    memberPieces "duiTimeOriginNs" (.string (decimalSigned origin)) ++ [JsonPiece.mark 0x7d]

theorem head_pieces_tokens : headPieces.map JsonPiece.token = headTokens := by
  unfold headPieces threadPieces headTokens
  simp only [List.map_append, member_tokens, List.map_cons,
    List.map_nil, JsonPiece.token, List.append_assoc, List.cons_append, List.nil_append]

set_option maxRecDepth 8000 in
theorem head_pieces_text : headPieces.flatMap JsonPiece.text = traceHead := by
  unfold headPieces threadPieces
  simp only [List.flatMap_append, member_text, List.flatMap_cons,
    List.flatMap_nil, JsonPiece.text, List.append_assoc, List.cons_append, List.nil_append,
    List.append_nil]
  rfl

theorem thread_readable {digits : List UInt8} {tid : ℚ} {name : String}
    (thread : ReadsNumber digits tid) (plain : ∀ byte ∈ ascii name, PlainByte byte) :
    ReadablePieces (threadPieces digits tid name) := by
  have one : ReadsNumber [0x31] 1 := reads_decimal 1
  have opening : ReadablePieces
      [.mark 0x7b, .string (ascii "name"), .mark 0x3a, .string (ascii "thread_name")] :=
    .mark (by decide) (.string (ascii_plain (by decide)) (.mark (by decide)
      (readable_ascii (by decide))))
  have closing : ReadablePieces [.mark 0x2c, .string (ascii "args"), .mark 0x3a, .mark 0x7b,
      .string (ascii "name"), .mark 0x3a, .string (ascii name), .mark 0x7d, .mark 0x7d] :=
    .mark (by decide) (.string (ascii_plain (by decide)) (.mark (by decide) (.mark (by decide)
      (.string (ascii_plain (by decide)) (.mark (by decide) (.string plain
        (.mark (by decide) (.mark (by decide) .nil))))))))
  have closingLed : LedByMark [.mark 0x2c, .string (ascii "args"), .mark 0x3a, .mark 0x7b,
      .string (ascii "name"), .mark 0x3a, .string (ascii name), .mark 0x7d, .mark 0x7d] :=
    led_mark (by decide) _
  unfold threadPieces
  apply ReadablePieces.append _ closingLed closing
  apply ReadablePieces.member _ (ascii_plain (by decide)) (readable_number thread)
  apply ReadablePieces.member _ (ascii_plain (by decide)) (readable_number one)
  apply ReadablePieces.member opening (ascii_plain (by decide)) (readable_ascii (by decide))

theorem head_readable : ReadablePieces headPieces := by
  have one : ReadsNumber [0x31] 1 := reads_decimal 1
  have two : ReadsNumber [0x32] 2 := reads_decimal 2
  have first : ReadablePieces (threadPieces [0x31] 1 "DUI UI") :=
    thread_readable one (ascii_plain (by decide))
  have second : ReadablePieces (threadPieces [0x32] 2 "DUI Raster") :=
    thread_readable two (ascii_plain (by decide))
  have rest := first.append (led_mark (by decide) _)
    (show ReadablePieces (.mark 0x2c :: threadPieces [0x32] 2 "DUI Raster")
      from .mark (by decide) second)
  exact .mark (by decide) (.string (ascii_plain (by decide)) (.mark (by decide)
    (.mark (by decide) rest)))

theorem tail_pieces_tokens (dropped : Nat) (origin : Int) :
    (tailPieces dropped origin).map JsonPiece.token = tailTokens dropped origin := by
  unfold tailPieces tailTokens
  simp only [List.map_append, member_tokens, List.map_cons,
    List.map_nil, JsonPiece.token]

set_option maxRecDepth 8000 in
theorem tail_pieces_text (dropped : Nat) (origin : Int) :
    (tailPieces dropped origin).flatMap JsonPiece.text =
      ascii "],\"displayTimeUnit\":\"ns\",\"duiDroppedEventCount\":" ++ decimal dropped ++
        ascii ",\"duiTimeOriginNs\":\"" ++ decimalSigned origin ++ ascii "\"\x7d" := by
  unfold tailPieces
  simp only [List.flatMap_append, member_text, List.flatMap_cons, List.flatMap_nil,
    JsonPiece.text, List.append_assoc, List.cons_append, List.nil_append, List.append_nil]
  rfl

theorem decimal_signed_plain (value : Int) : ∀ byte ∈ decimalSigned value, PlainByte byte := by
  unfold decimalSigned
  split_ifs
  · intro byte member
    obtain rfl | digit := List.mem_cons.mp member
    · decide
    · exact decimal_plain _ byte digit
  · exact decimal_plain _

theorem tail_led (dropped : Nat) (origin : Int) : LedByMark (tailPieces dropped origin) :=
  led_mark (by decide) _

theorem tail_readable (dropped : Nat) (origin : Int) :
    ReadablePieces (tailPieces dropped origin) := by
  have opening : ReadablePieces [.mark 0x5d] := .mark (by decide) .nil
  have closing : ReadablePieces [.mark 0x7d] := .mark (by decide) .nil
  unfold tailPieces
  apply ReadablePieces.append _ (led_mark (by decide) _) closing
  apply ReadablePieces.member _ (ascii_plain (by decide)) (readable_string (decimal_signed_plain _))
  apply ReadablePieces.member _ (ascii_plain (by decide)) (readable_number (reads_decimal _))
  apply ReadablePieces.member opening (ascii_plain (by decide)) (readable_ascii (by decide))

/-- What the export writes once its first loop has passed. -/
theorem trace_written {snapshot : TimelineSnapshot} {pieces : List JsonPiece}
    {texts : List (List UInt8)}
    (checked : snapshot.events.forM (checkTraceEvent · (traceOrigin snapshot.events)) = .ok ())
    (mapped : snapshot.events.mapM (traceEvent · (traceOrigin snapshot.events)) = .ok texts)
    (flat : texts.flatten = pieces.flatMap JsonPiece.text) :
    snapshot.toChromeTraceJson = .ok ((headPieces ++ pieces ++
      tailPieces snapshot.droppedEventCount.toNat (traceOrigin snapshot.events).toInt).flatMap
        JsonPiece.text) := by
  unfold TimelineSnapshot.toChromeTraceJson
  simp only [checked, mapped, bind, Except.bind, pure, Except.pure]
  rw [List.flatMap_append, List.flatMap_append, head_pieces_text, tail_pieces_text, ← flat]
  simp only [List.append_assoc]

/-- An event is told, or its export is refused and it is an event to be rejected. -/
theorem rejected_iff {events : List StoredEvent} {event : StoredEvent} (member : event ∈ events) :
    event.Rejected events ↔
      ∃ failure, checkTraceEvent event (traceOrigin events) = .error failure := by
  have spec := trace_origin_spec events
  have before := spec.least event member
  obtain ⟨earliest, early, same⟩ := spec.attained (List.ne_nil_of_mem member)
  constructor
  · intro rejected
    obtain ⟨-, lane, phase, outcome, accepted, short, near⟩ | ⟨failed, -⟩ :=
      check_trace_event before
    · obtain unknown | negative | long | ⟨other, isOther, least, far⟩ := rejected
      · exact absurd unknown accepted.known
      · exact absurd accepted.positive (not_le.mpr negative)
      · omega
      · have later := spec.least other isOther
        omega
    · exact failed
  · rintro ⟨failure, failed⟩
    obtain ⟨passed, -⟩ | ⟨-, unknown | negative | long | far⟩ := check_trace_event before
    · rw [passed] at failed
      cases failed
    · exact .inl unknown
    · exact .inr (.inl negative)
    · exact .inr (.inr (.inl long))
    · refine .inr (.inr (.inr ⟨earliest, early, ?_, by omega⟩))
      intro other isOther
      rw [same]
      exact spec.least other isOther

/-- The trace of a timeline is refused exactly when an event has an unknown name, a
negative duration, or a time out of the exact range; otherwise the text is read as tokens
that tell every event, with exact times. -/
theorem chrome_trace_exact (snapshot : TimelineSnapshot) :
    ((∃ failure, snapshot.toChromeTraceJson = .error failure) ↔
      ∃ event ∈ snapshot.events, event.Rejected snapshot.events) ∧
    ∀ text, snapshot.toChromeTraceJson = .ok text →
      ∃ (origin : Int) (tokens : List (List JsonToken)), IsOrigin snapshot.events origin ∧
        List.Forall₂ (fun event tokens => event.Told origin tokens) snapshot.events tokens ∧
        lexJson text.length text =
          some (headTokens ++ tokens.flatten ++
            tailTokens snapshot.droppedEventCount.toNat origin) := by
  have spec := trace_origin_spec snapshot.events
  obtain ⟨checked, each⟩ | ⟨⟨failure, stopped⟩, event, member, failed⟩ :=
    @check_all snapshot.events (traceOrigin snapshot.events)
  · have told : ∀ event ∈ snapshot.events, ∃ pieces,
        traceEvent event (traceOrigin snapshot.events) = .ok (pieces.flatMap JsonPiece.text) ∧
        ReadablePieces pieces ∧ (∃ more, pieces = .mark 0x2c :: more) ∧
        event.Told (traceOrigin snapshot.events).toInt (pieces.map JsonPiece.token) := by
      intro event member
      have before := spec.least event member
      obtain ⟨-, lane, phase, outcome, accepted, -⟩ | ⟨⟨failure, failed⟩, -⟩ :=
        check_trace_event before
      · exact trace_event_told accepted before
      · rw [each event member] at failed
        cases failed
    obtain ⟨texts, pieces, tokens, mapped, flat, readable, led, tokensFlat, all⟩ :=
      trace_events_told told
    have written := trace_written checked mapped flat
    constructor
    · constructor
      · rintro ⟨failure, failed⟩
        rw [written] at failed
        cases failed
      · rintro ⟨event, member, rejected⟩
        obtain ⟨failure, failed⟩ := (rejected_iff member).mp rejected
        rw [each event member] at failed
        cases failed
    · intro text same
      rw [written] at same
      obtain rfl := Except.ok.inj same
      apply Exists.intro (traceOrigin snapshot.events).toInt
      apply Exists.intro tokens
      apply And.intro spec
      apply And.intro all
      have whole := (head_readable.append led readable).append (tail_led _ _)
        (tail_readable snapshot.droppedEventCount.toNat (traceOrigin snapshot.events).toInt)
      rw [whole.lex _ (le_refl _), List.map_append, List.map_append, head_pieces_tokens,
        tokensFlat, tail_pieces_tokens]
  · have refused : ∃ failure, snapshot.toChromeTraceJson = .error failure := by
      apply Exists.intro failure
      unfold TimelineSnapshot.toChromeTraceJson
      simp only [stopped, bind, Except.bind]
    constructor
    · constructor
      · intro _
        exact ⟨event, member, (rejected_iff member).mpr failed⟩
      · intro _
        exact refused
    · intro text same
      obtain ⟨failure, error⟩ := refused
      rw [error] at same
      cases same

end Dui
