import Dui.Transition
import Dui.Utf16

/-!
# Text input of a Win32 window

The text session of the backend: characters, the messages of an input method and the
updates of the application edit a UTF-8 value, and the client is told of the edits. The
conversion of UTF-16 is Win32's, and stands as a parameter. Every byte carries the origin
of the text it belongs to, which nothing in the code reads.
-/

namespace Dui

open Transition

/-- Where text comes from: the application, a composition string, or a message that
committed it. -/
inductive TextOrigin where
  | own
  | composed
  | committed (message : Nat)
  deriving DecidableEq, Repr

structure TextByte where
  byte : UInt8
  origin : TextOrigin
  deriving DecidableEq, Repr

/-- A `TextEditingValue` with the origins of its bytes. -/
structure TracedValue where
  text : List TextByte := []
  selection : TextRange := {}
  composing : Option TextRange := none
  deriving DecidableEq, Repr

namespace TracedValue

/-- The value without the origins. -/
def value (traced : TracedValue) : TextEditingValue where
  text := traced.text.map TextByte.byte
  selection := traced.selection
  composing := traced.composing

/-- A value of the application. -/
def ofValue (value : TextEditingValue) : TracedValue where
  text := value.text.map fun byte => ⟨byte, .own⟩
  selection := value.selection
  composing := value.composing

/-- `replace_range`. -/
def replaceRange (traced : TracedValue) (range : TextRange) (replacement : List UInt8)
    (origin : TextOrigin) (cursorInReplacement : Nat) (composing : Bool) : TracedValue where
  text := traced.text.take range.start ++ replacement.map (fun byte => ⟨byte, origin⟩) ++
    traced.text.drop (range.start + (range.stop - range.start))
  selection :=
    ⟨range.start + cursorInReplacement, range.start + cursorInReplacement⟩
  composing :=
    if composing then some ⟨range.start, range.start + replacement.length⟩ else none

end TracedValue

/-- `Session`; of the weak pointer to the client, whether it has expired. -/
structure Win32Session where
  client : Bool := true
  configuration : TextInputConfiguration := {}
  value : TracedValue
  pendingHighSurrogate : Option UInt16 := none
  beforeComposition : Option TracedValue := none
  deriving DecidableEq

/-- `State`, with the values that were passed to `emit_value` and the number of messages
so far. -/
structure Win32Text where
  active : Option Win32Session := none
  passed : List TextEditingValue := []
  messages : Nat := 0
  deriving DecidableEq

/-- What the client does when it is told of a value. -/
inductive ClientReply where
  | returns
  | throws
  | updates (value : TextEditingValue) (cancels : Bool)
  | stops
  deriving DecidableEq, Repr

/-- What `process_composition` reads: the result and the composition string, where the
flags announce them and they can be read, and the position of the cursor; and whether the
session is as before once they are read. -/
structure CompositionReading where
  result : Option (Except Failure (List UInt16)) := none
  composition : Option (Except Failure (List UInt16)) := none
  cursor : Int := 0
  undisturbed : Bool := true
  resultReply : ClientReply := .returns
  compositionReply : ClientReply := .returns

/-- A window message. -/
inductive Win32Message where
  | char (character : UInt16) (reply : ClientReply)
  | imeChar
  | startComposition
  /-- `WM_IME_COMPOSITION`; nothing is read where there is no input context. -/
  | composition (reading : Option CompositionReading)
  | endComposition (reply : ClientReply)
  | other

namespace Win32Text

/-- `update`, and whether it returned; `cancels` if the input method gives up its
composition. -/
def update (text : Win32Text) (value : TextEditingValue) (cancels : Bool) :
    Bool × Win32Text :=
  match text.active with
  | none => (true, text)
  | some session =>
    if ¬ value.valid then (false, text)
    else if session.value.composing.isSome ∧ ¬ cancels then (false, { text with active := none })
    else
      let session := { session with
        value := .ofValue value
        pendingHighSurrogate := none
        beforeComposition := none }
      (true, { text with active := some session })

/-- `update_editing_value` of the client, and whether it returned. -/
def tell (text : Win32Text) : ClientReply → Bool × Win32Text
  | .returns => (true, text)
  | .throws => (false, text)
  | .updates value cancels => text.update value cancels
  | .stops => (true, { text with active := none })

/-- `emit_value`: whether it returned, and then whether nothing has changed since. -/
def emitValue (text : Win32Text) (value : TracedValue) (reply : ClientReply) :
    Option Bool × Win32Text :=
  let text := { text with passed := text.passed ++ [value.value] }
  if ¬ value.value.valid then (none, text)
  else
    match text.active with
    | none => (some false, text)
    | some session =>
      if ¬ session.client then (some false, { text with active := none })
      else
        match { text with active := some { session with value } }.tell reply with
        | (false, text) => (none, text)
        | (true, text) => (some (reply = .returns), text)

end Win32Text

/-- `wide_to_utf8` by the conversion of Win32. -/
def wideToUtf8 (convert : List UInt16 → Option (List UInt8)) (wide : List UInt16) :
    Except Failure (List UInt8) :=
  if wide = [] then .ok []
  else
    match convert wide with
    | none => .error (.runtimeError "Invalid UTF-16 text from Win32")
    | some text => .ok text

/-- Does the byte continue an encoding? -/
def continuesEncoding (byte : UInt8) : Bool := byte &&& 0xc0 = 0x80

/-- The loop that looks for the start of the encoding before a position. -/
def previousStart (text : List UInt8) : Nat → Nat
  | 0 => 0
  | previous + 1 =>
    if text[previous + 1]?.any continuesEncoding then previousStart text previous
    else previous + 1

namespace Win32Session

/-- Whether the character performs the action of the session. -/
def performsAction (session : Win32Session) (character : UInt16) : Bool :=
  character = 13 ∧ (¬ session.configuration.multiline ∨ session.configuration.action ≠ .none)

/-- What a backspace removes. -/
def backspaceRange (session : Win32Session) : TextRange :=
  let range := session.value.selection
  if range.start = range.stop ∧ range.start ≠ 0 then
    { range with start := previousStart session.value.value.text (range.start - 1) }
  else range

end Win32Session

section
variable (convert : List UInt16 → Option (List UInt8))

namespace Win32Text

/-- The insertion of code units in `process_character`. -/
def insertCharacters (text : Win32Text) (session : Win32Session) (characters : List UInt16)
    (reply : ClientReply) : Win32Text :=
  match wideToUtf8 convert characters with
  | .error _ => text
  | .ok inserted =>
    (text.emitValue (session.value.replaceRange session.value.selection inserted
      (.committed text.messages) inserted.length false) reply).2

/-- `process_character`. -/
def processCharacter (text : Win32Text) (session : Win32Session) (character : UInt16)
    (reply : ClientReply) : Win32Text :=
  if session.performsAction character then
    if session.client then (text.tell reply).2 else { text with active := none }
  else
    let character := if character = 13 then 10 else character
    if character = 8 then
      (text.emitValue (session.value.replaceRange session.backspaceRange [] .own 0 false) reply).2
    else if isHighSurrogate character then
      { text with active := some { session with pendingHighSurrogate := some character } }
    else
      let settled := { session with pendingHighSurrogate := none }
      if isLowSurrogate character then
        match session.pendingHighSurrogate with
        | none => text
        | some high =>
          { text with active := some settled }.insertCharacters convert settled [high, character]
            reply
      else { text with active := some settled }.insertCharacters convert settled [character] reply

end Win32Text

/-- The result that `process_composition` reads. -/
def readResult (reading : CompositionReading) : Except Failure (Option (List UInt8)) :=
  match reading.result with
  | none => .ok none
  | some (.error failure) => .error failure
  | some (.ok wide) => (wideToUtf8 convert wide).map some

/-- The composition that it reads, with the cursor in it. -/
def readComposition (reading : CompositionReading) :
    Except Failure (Option (List UInt8 × Nat)) :=
  match reading.composition with
  | none => .ok none
  | some (.error failure) => .error failure
  | some (.ok wide) => do
    let cursor := min reading.cursor.toNat wide.length
    let text ← wideToUtf8 convert wide
    let before ← wideToUtf8 convert (wide.take (avoidPair wide cursor))
    return some (text, before.length)

namespace Win32Text

/-- The part of `process_composition` about a result, and whether it goes on. -/
def commitResult (text : Win32Text) (session : Win32Session) (result : Option (List UInt8))
    (reply : ClientReply) : Bool × Win32Text :=
  match result with
  | none => (true, text)
  | some result =>
    let range := session.value.composing.getD session.value.selection
    let text := { text with active := some { session with beforeComposition := none } }
    match text.emitValue (session.value.replaceRange range result (.committed text.messages)
      result.length false) reply with
    | (some true, text) => (true, text)
    | (_, text) => (false, text)

/-- The part about a composition string. -/
def compose (text : Win32Text) (composition : List UInt8 × Nat) (reply : ClientReply) :
    Win32Text :=
  match text.active with
  | none => text
  | some session =>
    let session := { session with
      beforeComposition := some (session.beforeComposition.getD session.value) }
    let range := session.value.composing.getD session.value.selection
    ({ text with active := some session }.emitValue (session.value.replaceRange range
      composition.1 .composed composition.2 true) reply).2

/-- `process_composition`. -/
def processComposition (text : Win32Text) (session : Win32Session)
    (reading : Option CompositionReading) : Win32Text :=
  match reading with
  | none => text
  | some reading =>
    match readResult convert reading, readComposition convert reading with
    | .ok result, .ok composition =>
      if ¬ reading.undisturbed then text
      else
        match text.commitResult session result reading.resultReply, composition with
        | (true, text), some composition => text.compose composition reading.compositionReply
        | (_, text), _ => text
    | _, _ => text

/-- `handle`. -/
def handle (text : Win32Text) (message : Win32Message) : Win32Text :=
  let text := { text with messages := text.messages + 1 }
  match text.active with
  | none => text
  | some session =>
    if ¬ session.client then { text with active := none }
    else
      match message with
      | .char character reply => text.processCharacter convert session character reply
      | .imeChar => text
      | .startComposition =>
        let session := { session with
          pendingHighSurrogate := none
          beforeComposition := some session.value
          value := { session.value with composing := some session.value.selection } }
        { text with active := some session }
      | .composition reading => text.processComposition convert session reading
      | .endComposition reply =>
        match session.beforeComposition with
        | none => { text with active := some { session with pendingHighSurrogate := none } }
        | some value =>
          let session := { session with pendingHighSurrogate := none, beforeComposition := none }
          ({ text with active := some session }.emitValue value reply).2
      | .other => text

end Win32Text

/-- What happens to the session. -/
inductive Win32Action where
  | message (message : Win32Message)
  | update (value : TextEditingValue) (cancels : Bool)
  /-- The client is destroyed. -/
  | expire

namespace Win32Text

def perform (text : Win32Text) : Win32Action → Win32Text
  | .message message => text.handle convert message
  | .update value cancels => (text.update value cancels).2
  | .expire => { text with active := text.active.map ({ · with client := false }) }

/-- `start` of a session with nothing active. -/
def started (configuration : TextInputConfiguration) (value : TextEditingValue) : Win32Text where
  active := some { configuration, value := .ofValue value }

end Win32Text

/-- The runs of a session that was started with a valid value. -/
def win32Machine : Machine Win32Text Win32Action where
  init text := ∃ configuration value, value.valid = true ∧
    text = Win32Text.started configuration value
  step text action := some (text.perform convert action)

end
end Dui
