import Mathlib.Logic.Function.Basic
import Dui.FocusManager
import Dui.TextEditing
import Dui.Transition

/-!
# The keyboard of a Wayland window

`WaylandKeyboardState` knows the pressed keys, `WaylandRepeatState` the key that repeats
and when; the handlers of the native window drive both, and set the repeat timer. A run
of the window mixes the handlers in any order, with expirations of the timer among them.
-/

namespace Dui

open Transition

/-- `WaylandKeyModifiers`. -/
structure WaylandKeyModifiers where
  shift : Bool := false
  control : Bool := false
  alt : Bool := false
  metaKey : Bool := false
  deriving DecidableEq, Repr

/-- A `KeyEvent` of the adapter, its logical key as bytes. -/
structure WaylandKeyEvent where
  logicalKey : List UInt8
  phase : KeyPhase
  modifiers : WaylandKeyModifiers
  deriving DecidableEq, Repr

/-- `WaylandKeyboardState`; a pressed key has the logical key it was pressed with. -/
structure WaylandKeyboardState where
  pressed : UInt32 → Option (List UInt8) := fun _ => none
  focused : Bool := false

namespace WaylandKeyboardState

def focusGained (keyboard : WaylandKeyboardState) : WaylandKeyboardState :=
  { keyboard with focused := true }

def focusLost (_ : WaylandKeyboardState) : WaylandKeyboardState where
  focused := false
  pressed := fun _ => none

def clearPressed (keyboard : WaylandKeyboardState) : WaylandKeyboardState :=
  { keyboard with pressed := fun _ => none }

def keyDown (keyboard : WaylandKeyboardState) (key : UInt32) (logicalKey : List UInt8)
    (modifiers : WaylandKeyModifiers) :
    Except Failure (Option WaylandKeyEvent × WaylandKeyboardState) :=
  if ¬ keyboard.focused then .ok (none, keyboard)
  else if logicalKey = [] ∨ ¬ isValidUtf8 logicalKey then
    .error (.invalidArgument "Wayland logical key must be non-empty UTF-8")
  else
    match keyboard.pressed key with
    | some _ => .error (.logicError "Wayland key is already pressed")
    | none =>
      .ok (some ⟨logicalKey, .down, modifiers⟩,
        { keyboard with pressed := Function.update keyboard.pressed key (some logicalKey) })

def keyRepeat (keyboard : WaylandKeyboardState) (key : UInt32)
    (modifiers : WaylandKeyModifiers) : Option WaylandKeyEvent :=
  if ¬ keyboard.focused then none
  else (keyboard.pressed key).map fun logicalKey => ⟨logicalKey, .repeat, modifiers⟩

def keyUp (keyboard : WaylandKeyboardState) (key : UInt32) (modifiers : WaylandKeyModifiers) :
    Option WaylandKeyEvent × WaylandKeyboardState :=
  if ¬ keyboard.focused then (none, keyboard)
  else
    match keyboard.pressed key with
    | none => (none, keyboard)
    | some logicalKey =>
      (some ⟨logicalKey, .up, modifiers⟩,
        { keyboard with pressed := Function.update keyboard.pressed key none })

end WaylandKeyboardState

structure WaylandRepeatSchedule where
  key : UInt32
  delay : Int
  interval : Int
  generation : UInt64
  deriving DecidableEq, Repr

/-- `WaylandRepeatState`, its times in nanoseconds. -/
structure WaylandRepeatState where
  candidate : Option UInt32 := none
  keyDownTime : Int := 0
  delay : Int := 0
  interval : Int := 0
  generation : UInt64 := 1
  deriving DecidableEq, Repr

namespace WaylandRepeatState

def maximumEventsPerDispatch : UInt64 := 16

/-- The largest generation. -/
def maximumGeneration : UInt64 := 18446744073709551615

def advanceGeneration (repeats : WaylandRepeatState) : Except Failure WaylandRepeatState :=
  if repeats.generation = maximumGeneration then
    .error (.overflowError "Wayland repeat generation exhausted")
  else .ok { repeats with generation := repeats.generation + 1 }

def configure (repeats : WaylandRepeatState) (rate delayMilliseconds : Int32) (now : Int) :
    Except Failure WaylandRepeatState := do
  if rate < 0 ∨ delayMilliseconds < 0 ∨ now < 0 ∨
      (repeats.candidate.isSome ∧ now < repeats.keyDownTime) then
    .error (.invalidArgument "Invalid Wayland keyboard repeat information")
  else if rate ≠ 0 ∧ (1000000000 : Int) / rate.toInt = 0 then
    .error (.invalidArgument "Wayland keyboard repeat rate exceeds timer precision")
  else
    let interval : Int := if rate ≠ 0 then 1000000000 / rate.toInt else 0
    let delay : Int := delayMilliseconds.toInt * 1000000
    if repeats.interval = interval ∧ repeats.delay = delay then .ok repeats
    else
      let repeats ← repeats.advanceGeneration
      return { repeats with interval, delay }

def keyDown (repeats : WaylandRepeatState) (key : UInt32) (repeatable : Bool) (now : Int) :
    Except Failure WaylandRepeatState := do
  if now < 0 then
    .error (.invalidArgument "Wayland repeat key time must be nonnegative")
  else if ¬ repeatable then .ok repeats
  else
    let repeats ← repeats.advanceGeneration
    return { repeats with candidate := some key, keyDownTime := now }

def keyUp (repeats : WaylandRepeatState) (key : UInt32) : Except Failure WaylandRepeatState := do
  if repeats.candidate ≠ some key then .ok repeats
  else
    let repeats ← repeats.advanceGeneration
    return { repeats with candidate := none }

def cancel (repeats : WaylandRepeatState) : Except Failure WaylandRepeatState := do
  if repeats.candidate = none then .ok repeats
  else
    let repeats ← repeats.advanceGeneration
    return { repeats with candidate := none }

def schedule (repeats : WaylandRepeatState) (now : Int) :
    Except Failure (Option WaylandRepeatSchedule) :=
  if now < 0 ∨ (repeats.candidate.isSome ∧ now < repeats.keyDownTime) then
    .error (.invalidArgument "Invalid Wayland repeat schedule time")
  else
    match repeats.candidate with
    | none => .ok none
    | some candidate =>
      if repeats.interval = 0 then .ok none
      else
        let elapsed := now - repeats.keyDownTime
        let remaining := if elapsed < repeats.delay then repeats.delay - elapsed else 1
        .ok (some ⟨candidate, max remaining 1, repeats.interval, repeats.generation⟩)

def deliveryCount (repeats : WaylandRepeatState) (expirations generation : UInt64) : UInt64 :=
  if repeats.candidate = none ∨ repeats.interval = 0 ∨ generation ≠ repeats.generation then 0
  else min expirations maximumEventsPerDispatch

end WaylandRepeatState

/-- A key event handed to the driver, with the key it is about. -/
abbrev SentKey := UInt32 × WaylandKeyEvent

/-- What the native window's handlers of the keyboard work on. Of the driver only whether
it runs, and the key events it is handed while it does: those of the current period of one
focus and one keymap, and those of the periods before it. -/
structure WaylandKeyWindow where
  running : Bool := true
  nativeRunning : Bool := true
  /-- `keyboard`, whether there is one. -/
  bound : Bool := false
  /-- `xkb_state_handle`, whether there is one. -/
  xkb : Bool := false
  keyboard : WaylandKeyboardState := {}
  repeats : WaylandRepeatState := {}
  /-- What `repeat_fd` was last set to, and the generation it was set for. -/
  timer : Option WaylandRepeatSchedule × UInt64 := (none, 1)
  earlier : List (List SentKey) := []
  current : List SentKey := []

/-- The time a handler reads, and whether the timer it sets accepts it. -/
structure TimerAnswer where
  now : Int
  accepts : Bool
  deriving DecidableEq, Repr

/-- What reading the timer gives. -/
inductive TimerRead where
  | again
  | failed
  | expirations (count : UInt64)
  deriving DecidableEq, Repr

namespace WaylandKeyWindow

/-- `fail_native`. -/
def failNative (window : WaylandKeyWindow) : WaylandKeyWindow := { window with running := false }

/-- Begins a new period. -/
def divide (window : WaylandKeyWindow) : WaylandKeyWindow :=
  { window with earlier := window.earlier ++ [window.current], current := [] }

/-- `HostWindowDriver::send_key`; the driver stops where its task cannot be posted. -/
def sendKey (window : WaylandKeyWindow) (key : UInt32) (event : WaylandKeyEvent)
    (posted : Bool) : WaylandKeyWindow :=
  if ¬ window.running then window
  else { window with current := window.current ++ [(key, event)], running := posted }

/-- `sync_repeat_timer`. -/
def syncRepeatTimer (window : WaylandKeyWindow) (answer : TimerAnswer) :
    Except Failure WaylandKeyWindow := do
  let schedule ← window.repeats.schedule answer.now
  if ¬ answer.accepts then
    .error (.runtimeError "Could not configure Wayland repeat timer")
  else return { window with timer := (schedule, window.repeats.generation) }

/-- A part of a handler that changes the repeat state and then sets the timer, and whether
it returned. -/
def changeRepeat (window : WaylandKeyWindow) (changed : Except Failure WaylandRepeatState)
    (always : Bool) (answer : TimerAnswer) : Bool × WaylandKeyWindow :=
  match changed with
  | .error _ => (false, window)
  | .ok repeats =>
    let next := { window with repeats }
    if ¬ always ∧ repeats.generation = window.repeats.generation then (true, next)
    else
      match next.syncRepeatTimer answer with
      | .error _ => (false, next)
      | .ok next => (true, next)

/-- `cancel_repeat`, and whether it returned. -/
def cancelRepeat (window : WaylandKeyWindow) (answer : TimerAnswer) : Bool × WaylandKeyWindow :=
  window.changeRepeat window.repeats.cancel true answer

/-- `cancel_repeat_noexcept`. -/
def cancelRepeatNoexcept (window : WaylandKeyWindow) (answer : TimerAnswer) :
    WaylandKeyWindow :=
  match window.cancelRepeat answer with
  | (true, window) => window
  | (false, window) => if window.nativeRunning then window.failNative else window

/-- `focus_lost` of the keyboard state, which ends the period. -/
def loseFocus (window : WaylandKeyWindow) : WaylandKeyWindow :=
  { window with keyboard := window.keyboard.focusLost }.divide

/-- `destroy_xkb`. -/
def destroyXkb (window : WaylandKeyWindow) (answer : TimerAnswer) : WaylandKeyWindow :=
  let window := window.cancelRepeatNoexcept answer
  { window with xkb := false, keyboard := window.keyboard.clearPressed }.divide

/-- `destroy_keyboard`. -/
def destroyKeyboard (window : WaylandKeyWindow) (first second : TimerAnswer) :
    WaylandKeyWindow :=
  let window := window.cancelRepeatNoexcept first
  let window :=
    if window.keyboard.focused then window.loseFocus
    else { window with keyboard := window.keyboard.clearPressed }
  { window.destroyXkb second with bound := false }

/-- `handle_keyboard_keymap`; `accepted` if there is a state for the keymap. -/
def handleKeymap (window : WaylandKeyWindow) (accepted : Bool) (answer : TimerAnswer) :
    WaylandKeyWindow :=
  if ¬ accepted then window.failNative
  else { window.destroyXkb answer with xkb := true }

/-- `handle_keyboard_enter`; `own` if it is about the surface of the window. -/
def handleEnter (window : WaylandKeyWindow) (own : Bool) : WaylandKeyWindow :=
  if ¬ own then window
  else if window.keyboard.focused then window
  else { window with keyboard := window.keyboard.focusGained }.divide

/-- `handle_keyboard_leave`. -/
def handleLeave (window : WaylandKeyWindow) (own : Bool) (answer : TimerAnswer) :
    WaylandKeyWindow :=
  if ¬ own then window
  else
    match window.cancelRepeat answer with
    | (false, window) => window.failNative
    | (true, window) => window.loseFocus

end WaylandKeyWindow

/-- What `handle_keyboard_key` finds out: `logical_key`, which may throw, `modifiers`,
whether the keymap repeats the key, the timer, and whether the driver can post the
event. -/
structure KeyReading where
  logicalKey : Except Failure (List UInt8)
  modifiers : WaylandKeyModifiers
  repeatable : Bool
  answer : TimerAnswer
  posted : Bool

namespace WaylandKeyWindow

/-- A press in `handle_keyboard_key`. -/
def keyPressed (window : WaylandKeyWindow) (key : UInt32) (reading : KeyReading) :
    WaylandKeyWindow :=
  match reading.logicalKey with
  | .error _ => window.failNative
  | .ok logicalKey =>
    match window.keyboard.keyDown key logicalKey reading.modifiers with
    | .error _ => window.failNative
    | .ok (none, keyboard) => { window with keyboard }
    | .ok (some event, keyboard) =>
      let window := { window with keyboard }
      match window.changeRepeat
        (window.repeats.keyDown key reading.repeatable reading.answer.now) false
        reading.answer with
      | (false, window) => window.failNative
      | (true, window) => window.sendKey key event reading.posted

/-- A release in `handle_keyboard_key`. -/
def keyReleased (window : WaylandKeyWindow) (key : UInt32) (reading : KeyReading) :
    WaylandKeyWindow :=
  match window.changeRepeat (window.repeats.keyUp key) false reading.answer with
  | (false, window) => window.failNative
  | (true, window) =>
    match window.keyboard.keyUp key reading.modifiers with
    | (none, keyboard) => { window with keyboard }
    | (some event, keyboard) => { window with keyboard }.sendKey key event reading.posted

/-- `handle_keyboard_key`, with `WL_KEYBOARD_KEY_STATE_PRESSED` as 1 and
`WL_KEYBOARD_KEY_STATE_RELEASED` as 0. -/
def handleKey (window : WaylandKeyWindow) (key state : UInt32) (reading : KeyReading) :
    WaylandKeyWindow :=
  if ¬ window.xkb ∨ key > 4294967295 - 8 then window.failNative
  else if state = 1 then window.keyPressed key reading
  else if state = 0 then window.keyReleased key reading
  else window.failNative

/-- `handle_keyboard_repeat_info`. -/
def handleRepeatInfo (window : WaylandKeyWindow) (rate delay : Int32) (answer : TimerAnswer) :
    WaylandKeyWindow :=
  match window.changeRepeat (window.repeats.configure rate delay answer.now) true answer with
  | (false, window) => window.failNative
  | (true, window) => window

/-- The loop of `repeat_ready` over the turns that are left. -/
def deliverRepeats (key : UInt32) (modifiers : WaylandKeyModifiers) :
    List Bool → WaylandKeyWindow → WaylandKeyWindow
  | [], window => window
  | posted :: rest, window =>
    match window.keyboard.keyRepeat key modifiers with
    | none => deliverRepeats key modifiers rest window
    | some event => deliverRepeats key modifiers rest (window.sendKey key event posted)

/-- `repeat_ready`; `posted` says of every turn of its loop whether the driver can post
its event. -/
def repeatReady (window : WaylandKeyWindow) (generation : UInt64) (read : TimerRead)
    (modifiers : WaylandKeyModifiers) (posted : Nat → Bool) : WaylandKeyWindow :=
  if generation ≠ window.repeats.generation then window
  else
    match read with
    | .again => window
    | .failed => window.failNative
    | .expirations expirations =>
      match window.repeats.candidate with
      | none => window
      | some key =>
        let count := window.repeats.deliveryCount expirations generation
        deliverRepeats key modifiers ((List.range count.toNat).map posted) window

/-- `seat_keyboard_capabilities_changed`; `created` and `listening` if the keyboard could
be had and listened to. -/
def seatKeyboardCapabilitiesChanged (window : WaylandKeyWindow)
    (available created listening : Bool) (first second : TimerAnswer) : WaylandKeyWindow :=
  if ¬ available then window.destroyKeyboard first second
  else if window.bound ∨ ¬ window.nativeRunning then window
  else if ¬ created then window.failNative
  else if listening then { window with bound := true }
  else ({ window with bound := true }.destroyKeyboard first second).failNative

/-- `shutdown_native`, which comes after the driver was shut down. -/
def shutdownNative (window : WaylandKeyWindow) (first second : TimerAnswer) :
    WaylandKeyWindow :=
  let window := { window with running := false }
  if ¬ window.nativeRunning then window
  else { window with nativeRunning := false }.destroyKeyboard first second

end WaylandKeyWindow

/-- What happens to the window. The modifiers of the keyboard are read where a handler
needs them. -/
inductive KeyAction where
  | keymap (accepted : Bool) (answer : TimerAnswer)
  | enter (own : Bool)
  | leave (own : Bool) (answer : TimerAnswer)
  | key (key state : UInt32) (reading : KeyReading)
  | repeatInfo (rate delay : Int32) (answer : TimerAnswer)
  | repeatReady (generation : UInt64) (read : TimerRead) (modifiers : WaylandKeyModifiers)
      (posted : Nat → Bool)
  | capabilities (available created listening : Bool) (first second : TimerAnswer)
  | shutdownNative (first second : TimerAnswer)
  /-- The driver is shut down for another reason. -/
  | stop

namespace WaylandKeyWindow

def perform (window : WaylandKeyWindow) : KeyAction → WaylandKeyWindow
  | .keymap accepted answer => window.handleKeymap accepted answer
  | .enter own => window.handleEnter own
  | .leave own answer => window.handleLeave own answer
  | .key key state reading => window.handleKey key state reading
  | .repeatInfo rate delay answer => window.handleRepeatInfo rate delay answer
  | .repeatReady generation read modifiers posted =>
    window.repeatReady generation read modifiers posted
  | .capabilities available created listening first second =>
    window.seatKeyboardCapabilitiesChanged available created listening first second
  | .shutdownNative first second => window.shutdownNative first second
  | .stop => window.failNative

end WaylandKeyWindow

/-- The runs of a new window. -/
def waylandKeyMachine : Machine WaylandKeyWindow KeyAction where
  init window := window = {}
  step window action := some (window.perform action)

end Dui
