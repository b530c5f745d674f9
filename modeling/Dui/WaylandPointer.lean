import Dui.HostWindow

/-! The Wayland adapter's pointer state machine over the host's own. The two keep
their notions of an active pointer apart, and the host drops streams when the
window loses the keyboard; a history of the seat events alone decides whether the
two still agree. -/
namespace Dui
open Host HostWindowState

/-- `WaylandPointerState`. Fixed-point surface coordinates are always finite. -/
structure WaylandPointerState where
  pointer : PointerId := 1
  position : Offset := {}
  focused : Bool := false
  active : Bool := false
  deriving DecidableEq, Repr

namespace WaylandPointerState

def event (state : WaylandPointerState) (phase : PointerPhase) : PointerEvent :=
  ⟨state.pointer, phase, some state.position.x, some state.position.y⟩

def enter (state : WaylandPointerState) (x y : ℚ) : WaylandPointerState :=
  { state with position := ⟨x, y⟩, focused := true }

def leave (state : WaylandPointerState) : Option PointerEvent × WaylandPointerState :=
  let state := { state with focused := false }
  if ¬ state.active then (none, state)
  else (some (state.event .cancel), { state with active := false })

def motion (state : WaylandPointerState) (x y : ℚ) : Option PointerEvent × WaylandPointerState :=
  let state := { state with position := ⟨x, y⟩ }
  if ¬ state.focused ∨ ¬ state.active then (none, state)
  else (some (state.event .move), state)

def primaryButton (state : WaylandPointerState) (pressed : Bool) :
    Except Failure (Option PointerEvent × WaylandPointerState) :=
  if pressed then
    if ¬ state.focused then .ok (none, state)
    else if state.active then .error (.logicError "Wayland primary pointer is already pressed")
    else .ok (some (state.event .down), { state with active := true })
  else if ¬ state.active then .ok (none, state)
  else .ok (some (state.event .up), { state with active := false })

def capabilityLost (state : WaylandPointerState) : Option PointerEvent × WaylandPointerState :=
  let state := { state with focused := false }
  if ¬ state.active then (none, state)
  else (some (state.event .cancel), { state with active := false })

end WaylandPointerState

/-- The seat events the adapter handles. Enter and leave name a surface; `own`
says that it is the window's. -/
inductive SeatEvent where
  | pointerEnter (own : Bool) (x y : ℚ)
  | pointerLeave (own : Bool)
  | pointerMotion (x y : ℚ)
  | primaryButton (pressed : Bool)
  | pointerCapabilityLost
  | keyboardEnter (own : Bool)
  | keyboardLeave (own : Bool)
  | keyboardCapabilityLost
  deriving DecidableEq, Repr

/-- The part of the native window that sees the seat, with its host window. -/
structure WaylandSeat where
  host : Host
  pointer : WaylandPointerState := {}
  keyboardFocused : Bool := false

namespace WaylandSeat

/-- `Impl::send_pointer`. -/
def sendPointer (seat : WaylandSeat) : Option PointerEvent × WaylandPointerState → WaylandSeat
  | (none, pointer) => { seat with pointer }
  | (some event, pointer) => { seat with pointer, host := seat.host.sendPointer event }

/-- `fail_native`. -/
def failNative (seat : WaylandSeat) : WaylandSeat :=
  { seat with host := (seat.host.setSurfaceState .lost).shutdown true }

/-- The handlers of the seat's listeners. -/
def handle (seat : WaylandSeat) : SeatEvent → WaylandSeat
  | .pointerEnter own x y => if own then { seat with pointer := seat.pointer.enter x y } else seat
  | .pointerLeave own => if own then seat.sendPointer seat.pointer.leave else seat
  | .pointerMotion x y => seat.sendPointer (seat.pointer.motion x y)
  | .primaryButton pressed =>
    match seat.pointer.primaryButton pressed with
    | .ok sent => seat.sendPointer sent
    | .error _ => seat.failNative
  | .pointerCapabilityLost => seat.sendPointer seat.pointer.capabilityLost
  | .keyboardEnter own =>
    if own then { seat with keyboardFocused := true, host := seat.host.setFocused true } else seat
  | .keyboardLeave own =>
    if own then { seat with keyboardFocused := false, host := seat.host.setFocused false } else seat
  | .keyboardCapabilityLost =>
    if seat.keyboardFocused then
      { seat with keyboardFocused := false, host := seat.host.setFocused false }
    else seat

end WaylandSeat

/-- What the seat events alone tell: who has the keyboard, where the pointer is,
whether its button is down, whether it went down inside the window and has not
been interrupted (`grabbed`), whether the keyboard has been lost since (`torn`),
and whether the pointer was used after that (`broken`). -/
structure SeatHistory where
  keyboard : Bool := false
  inside : Bool := false
  held : Bool := false
  grabbed : Bool := false
  torn : Bool := false
  broken : Bool := false
  deriving DecidableEq, Repr

namespace SeatHistory

def loseKeyboard (history : SeatHistory) : SeatHistory :=
  { history with keyboard := false, torn := history.torn || (history.keyboard && history.grabbed) }

def next (history : SeatHistory) : SeatEvent → SeatHistory
  | .pointerEnter own _ _ => { history with inside := history.inside || own }
  | .pointerLeave own =>
    if own then { history with inside := false, grabbed := false, torn := false } else history
  | .pointerMotion _ _ => { history with broken := history.broken || history.torn }
  | .primaryButton true => { history with held := true, grabbed := history.inside }
  | .primaryButton false =>
    { history with
      held := false, grabbed := false, torn := false, broken := history.broken || history.torn }
  | .pointerCapabilityLost =>
    { history with inside := false, held := false, grabbed := false, torn := false }
  | .keyboardEnter own => { history with keyboard := history.keyboard || own }
  | .keyboardLeave own => if own then history.loseKeyboard else history
  | .keyboardCapabilityLost => history.loseKeyboard

/-- The compositor never repeats a press or a release. -/
def allows (history : SeatHistory) : SeatEvent → Bool
  | .primaryButton pressed => history.held ≠ pressed
  | _ => true

end SeatHistory

/-- The events a compositor may deliver: presses and releases alternate. -/
def alternating : SeatHistory → List SeatEvent → Bool
  | _, [] => true
  | history, event :: rest => history.allows event && alternating (history.next event) rest

/-- The pointer moves or is released after the keyboard was lost in the middle of
its press. -/
def tornPress (events : List SeatEvent) : Bool := (events.foldl SeatHistory.next {}).broken

/-- A window ready to receive seat events. -/
structure Host.Ready (host : Host) : Prop where
  running : host.state.running = true
  visible : host.state.visible = true
  unfocused : host.state.focused = false
  idle : host.state.activePointers = []
  posts : host.posts = []
  accepted : invalidPointer ∉ host.reported

/-- The adapter and the host are where the history says. -/
structure Agrees (seat : WaylandSeat) (history : SeatHistory) : Prop where
  running : seat.host.state.running = true
  visible : seat.host.state.visible = true
  posts : seat.host.posts = []
  focused : seat.host.state.focused = history.keyboard
  keyboard : seat.keyboardFocused = history.keyboard
  inside : seat.pointer.focused = history.inside
  active : seat.pointer.active = history.grabbed
  grabbed : history.grabbed = true → history.inside = true ∧ history.held = true
  torn : history.torn = true → history.grabbed = true
  streams : seat.host.state.activePointers =
    if history.grabbed && !history.torn then [seat.pointer.pointer] else []
  reported : invalidPointer ∈ seat.host.reported ↔ history.broken = true

section Host
variable {host : Host} (running : host.state.running = true) (visible : host.state.visible = true)
  (posts : host.posts = [])
include running visible posts

/-- What sending a pointer event does to a visible window while posts succeed. -/
theorem send_pointer_ready {event : PointerEvent} (finite : event.x.isNone = false ∧
      event.y.isNone = false) :
    (host.sendPointer event).state = { host.state with
        activePointers := (pointerPhase host.state.activePointers event).2 } ∧
      (host.sendPointer event).posts = [] ∧
      (invalidPointer ∈ (host.sendPointer event).reported ↔ invalidPointer ∈ host.reported ∨
        (pointerPhase host.state.activePointers event).1 = .invalid) := by
  have decided : sendPointerLocked host.state event =
      ((pointerPhase host.state.activePointers event).1, { host.state with
        activePointers := (pointerPhase host.state.activePointers event).2 }) := by
    simp [sendPointerLocked, running, visible, finite]
  unfold Host.sendPointer
  rw [decided]
  cases phased : pointerPhase host.state.activePointers event with | mk outcome active =>
  cases outcome with
  | ignored =>
    rw [pointer_phase_refused phased (by simp)]
    exact ⟨rfl, posts, by simp⟩
  | invalid =>
    rw [pointer_phase_refused phased (by simp)]
    exact ⟨rfl, posts, by simp [reportError]⟩
  | deliver => simp [tryPostUi, postSucceeds, posts]

/-- What a focus change does to a visible window while posts succeed. -/
theorem set_focused_ready (focused : Bool) :
    (host.setFocused focused).state = { host.state with
        focused
        activePointers := if host.state.focused && !focused then [] else
          host.state.activePointers } ∧
      (host.setFocused focused).posts = [] ∧
      (host.setFocused focused).reported = host.reported := by
  by_cases same : host.state.focused = focused
  · have unchanged : host.state.setFocusedLocked focused = (.unchanged, host.state) := by
      simp [setFocusedLocked, same]
    subst same
    simp [Host.setFocused, unchanged, posts]
  · cases focused with
    | true =>
      simp only [Bool.not_eq_true] at same
      simp [Host.setFocused, setFocusedLocked, running, visible, same, tryPostUi, postSucceeds,
        posts]
    | false =>
      simp only [Bool.not_eq_false] at same
      simp [Host.setFocused, setFocusedLocked, running, same, tryPostUi, postSucceeds, posts,
        takeActivePointersLocked]

end Host

/-- A pointer event that the adapter sends for its own pointer. -/
private theorem Agrees.send {seat : WaylandSeat} {history : SeatHistory}
    (agrees : Agrees seat history) {pointer : WaylandPointerState} {event : PointerEvent}
    {next : SeatHistory} (finite : event.x.isNone = false ∧ event.y.isNone = false)
    (same : pointer.pointer = seat.pointer.pointer) (inside : pointer.focused = next.inside)
    (active : pointer.active = next.grabbed) (keyboard : next.keyboard = history.keyboard)
    (grabbed : next.grabbed = true → next.inside = true ∧ next.held = true)
    (torn : next.torn = true → next.grabbed = true)
    (streams : (pointerPhase seat.host.state.activePointers event).2 =
      if next.grabbed && !next.torn then [seat.pointer.pointer] else [])
    (broken : next.broken = true ↔ history.broken = true ∨
      (pointerPhase seat.host.state.activePointers event).1 = .invalid) :
    Agrees (seat.sendPointer (some event, pointer)) next := by
  obtain ⟨state, posts, reported⟩ :=
    send_pointer_ready agrees.running agrees.visible agrees.posts finite
  constructor
  · simp [WaylandSeat.sendPointer, state, agrees.running]
  · simp [WaylandSeat.sendPointer, state, agrees.visible]
  · exact posts
  · simp [WaylandSeat.sendPointer, state, agrees.focused, keyboard]
  · simp [WaylandSeat.sendPointer, agrees.keyboard, keyboard]
  · exact inside
  · exact active
  · exact grabbed
  · exact torn
  · simp [WaylandSeat.sendPointer, state, streams, same]
  · simp only [WaylandSeat.sendPointer, reported, broken, agrees.reported]

private theorem Agrees.silent {seat : WaylandSeat} {history : SeatHistory}
    (agrees : Agrees seat history) {pointer : WaylandPointerState} {next : SeatHistory}
    (same : pointer.pointer = seat.pointer.pointer) (inside : pointer.focused = next.inside)
    (active : pointer.active = next.grabbed) (keyboard : next.keyboard = history.keyboard)
    (grabbed : next.grabbed = true → next.inside = true ∧ next.held = true)
    (untorn : next.torn = history.torn ∧ next.grabbed = history.grabbed)
    (broken : next.broken = history.broken) :
    Agrees { seat with pointer } next where
  running := agrees.running
  visible := agrees.visible
  posts := agrees.posts
  focused := agrees.focused.trans keyboard.symm
  keyboard := agrees.keyboard.trans keyboard.symm
  inside := inside
  active := active
  grabbed := grabbed
  torn := by
    rw [untorn.1, untorn.2]
    exact agrees.torn
  streams := by
    rw [untorn.1, untorn.2, same]
    exact agrees.streams
  reported := by
    rw [broken]
    exact agrees.reported

private theorem Agrees.whole {seat : WaylandSeat} {history : SeatHistory}
    (agrees : Agrees seat history) (idle : history.grabbed = false) : history.torn = false := by
  cases torn : history.torn with
  | false => rfl
  | true => exact absurd (agrees.torn torn) (by simp [idle])

/-- A pointer that leaves or disappears ends its stream without complaint. -/
private theorem Agrees.interrupt {seat : WaylandSeat} {history next : SeatHistory}
    (agrees : Agrees seat history) (keyboard : next.keyboard = history.keyboard)
    (inside : next.inside = false) (grabbed : next.grabbed = false) (torn : next.torn = false)
    (broken : next.broken = history.broken) :
    Agrees (seat.sendPointer seat.pointer.leave) next := by
  cases active : seat.pointer.active with
  | false =>
    have idle : history.grabbed = false := agrees.active.symm.trans active
    simp only [WaylandPointerState.leave, active]
    exact agrees.silent rfl inside.symm grabbed.symm keyboard (by simp [grabbed])
      ⟨torn.trans (agrees.whole idle).symm, grabbed.trans idle.symm⟩ broken
  | true =>
    simp only [WaylandPointerState.leave, active]
    refine agrees.send ⟨rfl, rfl⟩ rfl inside.symm grabbed.symm keyboard (by simp [grabbed])
      (by simp [torn]) ?_ ?_
    · rw [agrees.streams]
      cases history.grabbed && !history.torn <;>
        simp [pointerPhase, WaylandPointerState.event, grabbed]
    · rw [agrees.streams, broken]
      cases history.grabbed && !history.torn <;>
        simp [pointerPhase, WaylandPointerState.event]

/-- Losing the keyboard drops the stream on the host's side only. -/
private theorem Agrees.unfocus {seat : WaylandSeat} {history : SeatHistory}
    (agrees : Agrees seat history) :
    Agrees { seat with keyboardFocused := false, host := seat.host.setFocused false }
      history.loseKeyboard := by
  obtain ⟨state, posts, reported⟩ :=
    set_focused_ready agrees.running agrees.visible agrees.posts false
  have streams := agrees.streams
  constructor
  · simp [state, agrees.running]
  · simp [state, agrees.visible]
  · exact posts
  · simp [state, SeatHistory.loseKeyboard]
  · rfl
  · exact agrees.inside
  · exact agrees.active
  · exact agrees.grabbed
  · intro torn
    simp only [SeatHistory.loseKeyboard, Bool.or_eq_true, Bool.and_eq_true] at torn
    exact torn.elim agrees.torn And.right
  · simp only [state, agrees.focused, SeatHistory.loseKeyboard, streams]
    obtain ⟨keyboard, _, _, grabbed, torn, _⟩ := history
    cases keyboard <;> cases grabbed <;> cases torn <;> rfl
  · rw [reported]
    exact agrees.reported

/-- The adapter and the host follow the history of the seat. -/
theorem Agrees.handle {seat : WaylandSeat} {history : SeatHistory} (agrees : Agrees seat history)
    {event : SeatEvent} (allowed : history.allows event = true) :
    Agrees (seat.handle event) (history.next event) := by
  cases event with
  | pointerEnter own x y =>
    cases own with
    | false => simpa [WaylandSeat.handle, SeatHistory.next] using agrees
    | true =>
      refine agrees.silent rfl ?_ agrees.active rfl ?_ ⟨rfl, rfl⟩ rfl
      · simp [WaylandPointerState.enter, SeatHistory.next]
      · intro grabbed
        exact ⟨by simp [SeatHistory.next], (agrees.grabbed grabbed).2⟩
  | pointerLeave own =>
    cases own with
    | false => simpa [WaylandSeat.handle, SeatHistory.next] using agrees
    | true => exact agrees.interrupt rfl rfl rfl rfl rfl
  | pointerCapabilityLost => exact agrees.interrupt rfl rfl rfl rfl rfl
  | pointerMotion x y =>
    cases active : seat.pointer.active with
    | false =>
      have idle : history.grabbed = false := agrees.active.symm.trans active
      have still : seat.pointer.motion x y = (none, { seat.pointer with position := ⟨x, y⟩ }) := by
        simp [WaylandPointerState.motion, active]
      rw [WaylandSeat.handle, still]
      exact agrees.silent rfl agrees.inside agrees.active rfl agrees.grabbed ⟨rfl, rfl⟩
        (by simp [SeatHistory.next, agrees.whole idle])
    | true =>
      have grabbed : history.grabbed = true := agrees.active.symm.trans active
      have inside : seat.pointer.focused = true := agrees.inside.trans (agrees.grabbed grabbed).1
      have moved : seat.pointer.motion x y =
          (some (({ seat.pointer with position := ⟨x, y⟩ } : WaylandPointerState).event .move),
            { seat.pointer with position := ⟨x, y⟩ }) := by
        simp [WaylandPointerState.motion, active, inside]
      rw [WaylandSeat.handle, moved]
      refine agrees.send ⟨rfl, rfl⟩ rfl agrees.inside agrees.active rfl agrees.grabbed agrees.torn
        ?_ ?_
      all_goals
        rw [agrees.streams, grabbed]
        cases torn : history.torn <;>
          simp [pointerPhase, WaylandPointerState.event, SeatHistory.next, torn, grabbed]
  | primaryButton pressed =>
    cases pressed with
    | true =>
      have free : history.held = false := by simpa [SeatHistory.allows] using allowed
      have idle : history.grabbed = false := by
        cases grabbed : history.grabbed with
        | false => rfl
        | true => exact absurd (agrees.grabbed grabbed).2 (by simp [free])
      have active : seat.pointer.active = false := agrees.active.trans idle
      cases inside : history.inside with
      | false =>
        have outside : seat.pointer.focused = false := agrees.inside.trans inside
        have ignored : seat.pointer.primaryButton true = .ok (none, seat.pointer) := by
          simp [WaylandPointerState.primaryButton, outside]
        rw [WaylandSeat.handle, ignored]
        exact agrees.silent rfl agrees.inside (active.trans inside.symm) rfl (by simp [SeatHistory.next, inside])
          ⟨rfl, inside.trans idle.symm⟩ rfl
      | true =>
        have focused : seat.pointer.focused = true := agrees.inside.trans inside
        have sent : seat.pointer.primaryButton true =
            .ok (some (seat.pointer.event .down), { seat.pointer with active := true }) := by
          simp [WaylandPointerState.primaryButton, focused, active]
        rw [WaylandSeat.handle, sent]
        refine agrees.send ⟨rfl, rfl⟩ rfl agrees.inside inside.symm rfl ?_ ?_ ?_ ?_
        · exact fun _ => ⟨inside, rfl⟩
        · simp [SeatHistory.next, agrees.whole idle]
        all_goals
          rw [agrees.streams, idle]
          simp [pointerPhase, WaylandPointerState.event, SeatHistory.next, agrees.whole idle, inside]
    | false =>
      cases active : seat.pointer.active with
      | false =>
        have idle : history.grabbed = false := agrees.active.symm.trans active
        have ignored : seat.pointer.primaryButton false = .ok (none, seat.pointer) := by
          simp [WaylandPointerState.primaryButton, active]
        rw [WaylandSeat.handle, ignored]
        exact agrees.silent rfl agrees.inside active rfl (by simp [SeatHistory.next])
          ⟨(agrees.whole idle).symm, idle.symm⟩ (by simp [SeatHistory.next, agrees.whole idle])
      | true =>
        have grabbed : history.grabbed = true := agrees.active.symm.trans active
        have sent : seat.pointer.primaryButton false =
            .ok (some (seat.pointer.event .up), { seat.pointer with active := false }) := by
          simp [WaylandPointerState.primaryButton, active]
        rw [WaylandSeat.handle, sent]
        refine agrees.send ⟨rfl, rfl⟩ rfl agrees.inside rfl rfl (by simp [SeatHistory.next])
          (by simp [SeatHistory.next]) ?_ ?_
        all_goals
          rw [agrees.streams, grabbed]
          cases torn : history.torn <;>
            simp [pointerPhase, WaylandPointerState.event, SeatHistory.next, torn]
  | keyboardEnter own =>
    cases own with
    | false => simpa [WaylandSeat.handle, SeatHistory.next] using agrees
    | true =>
      obtain ⟨state, posts, reported⟩ :=
        set_focused_ready agrees.running agrees.visible agrees.posts true
      have kept : (seat.host.setFocused true).state = { seat.host.state with focused := true } := by
        simpa using state
      constructor
      · simp [WaylandSeat.handle, kept, agrees.running]
      · simp [WaylandSeat.handle, kept, agrees.visible]
      · exact posts
      · simp [WaylandSeat.handle, kept, SeatHistory.next]
      · simp [WaylandSeat.handle, SeatHistory.next]
      · exact agrees.inside
      · exact agrees.active
      · exact agrees.grabbed
      · exact agrees.torn
      · simpa [WaylandSeat.handle, kept, SeatHistory.next] using agrees.streams
      · simp only [WaylandSeat.handle, if_true, reported]
        exact agrees.reported
  | keyboardLeave own =>
    cases own with
    | false => simpa [WaylandSeat.handle, SeatHistory.next] using agrees
    | true => exact agrees.unfocus
  | keyboardCapabilityLost =>
    cases keyboard : seat.keyboardFocused with
    | true =>
      rw [WaylandSeat.handle, if_pos keyboard]
      exact agrees.unfocus
    | false =>
      have without : history.keyboard = false := agrees.keyboard.symm.trans keyboard
      have same : history.next .keyboardCapabilityLost = history := by
        obtain ⟨keyboard, inside, held, grabbed, torn, broken⟩ := history
        obtain rfl : keyboard = false := without
        simp [SeatHistory.next, SeatHistory.loseKeyboard]
      rw [WaylandSeat.handle, if_neg (by simp [keyboard]), same]
      exact agrees

/-- For every sequence of seat events in which presses and releases alternate, the
host refuses no pointer event exactly when the pointer is never used after the
keyboard was lost during its press. -/
theorem host_accepts_seat_iff {host : Host} (ready : host.Ready) {events : List SeatEvent}
    (allowed : alternating {} events = true) :
    invalidPointer ∉ (events.foldl WaylandSeat.handle { host }).host.reported ↔
      tornPress events = false := by
  have start : Agrees { host } {} := by
    refine ⟨ready.running, ready.visible, ready.posts, ready.unfocused, rfl, rfl, rfl, ?_, ?_,
      ready.idle, ?_⟩
    · simp
    · simp
    · simp [ready.accepted]
  have followed : ∀ (events : List SeatEvent) (seat : WaylandSeat) (history : SeatHistory),
      Agrees seat history → alternating history events = true →
      Agrees (events.foldl WaylandSeat.handle seat) (events.foldl SeatHistory.next history) := by
    intro events
    induction events with
    | nil => exact fun seat history agrees _ => agrees
    | cons event rest ih =>
      intro seat history agrees allowed
      obtain ⟨here, later⟩ := Bool.and_eq_true_iff.mp allowed
      exact ih _ _ (agrees.handle here) later
  rw [(followed events _ _ start allowed).reported, tornPress, Bool.not_eq_true]

/-- A bound, visible window that has seen no seat event. -/
def readyWindow : Host :=
  { state := { id := 1, metrics := ⟨⟨10, 20⟩, 10, 20, 1, 1⟩, visible := true, delegate := some 7,
               delegateGeneration := 1 } }

theorem ready_window_ready : readyWindow.Ready := ⟨rfl, rfl, rfl, rfl, rfl, by simp [readyWindow]⟩

/-- A press with a drag, then the keyboard lost between two presses. -/
theorem drag_accepted :
    invalidPointer ∉ ([.keyboardEnter true, .pointerEnter true 1 1, .primaryButton true,
      .pointerMotion 2 1, .primaryButton false, .keyboardLeave true, .primaryButton true,
      .pointerLeave true].foldl WaylandSeat.handle { host := readyWindow }).host.reported :=
  (host_accepts_seat_iff ready_window_ready (by rfl)).mpr rfl

/-- The keyboard leaves during a press; the next motion is refused by the host. -/
theorem torn_drag_refused :
    alternating {} [.keyboardEnter true, .pointerEnter true 1 1, .primaryButton true,
      .keyboardLeave true, .pointerMotion 2 1] = true ∧
    invalidPointer ∈ ([.keyboardEnter true, .pointerEnter true 1 1, .primaryButton true,
      .keyboardLeave true, .pointerMotion 2 1].foldl WaylandSeat.handle
        { host := readyWindow }).host.reported := by
  decide

end Dui
