import Mathlib.Data.List.Infix
import Dui.WaylandKeyboard

/-!
# Key streams of a Wayland window

Whatever the order of key, focus, keymap and timer events, the key events of a period of
one focus and one keymap are strokes: a press, its repeats and its release, all with the
logical key of the press. The key that repeats is pressed, and a generation of the repeat
state never comes to stand for another key or another timing.
-/

namespace Dui

open Transition

/-! ### Strokes -/

/-- A press, the repeats that follow it, and the release. -/
structure KeyStroke where
  logicalKey : List UInt8
  repeats : Nat

def KeyStroke.events (stroke : KeyStroke) : List (KeyPhase × List UInt8) :=
  (.down, stroke.logicalKey) ::
    (List.replicate stroke.repeats (.repeat, stroke.logicalKey) ++ [(.up, stroke.logicalKey)])

/-- What was sent about a key. -/
def eventsOf (key : UInt32) (sent : List SentKey) : List (KeyPhase × List UInt8) :=
  sent.filterMap fun (own, event) =>
    if own = key then some (event.phase, event.logicalKey) else none

/-- A prefix of strokes, one after the other. -/
def KeyStream (events : List (KeyPhase × List UInt8)) : Prop :=
  ∃ strokes : List KeyStroke, events <+: strokes.flatMap KeyStroke.events

/-- The events that leave a key pressed with a logical key, or leave it released. -/
def Leaves (events : List (KeyPhase × List UInt8)) : Option (List UInt8) → Prop
  | none => ∃ strokes : List KeyStroke, events = strokes.flatMap KeyStroke.events
  | some logicalKey => ∃ (strokes : List KeyStroke) (count : Nat),
    events = strokes.flatMap KeyStroke.events ++
      (.down, logicalKey) :: List.replicate count (.repeat, logicalKey)

variable {events : List (KeyPhase × List UInt8)} {logicalKey : List UInt8}

theorem Leaves.stream {pressed : Option (List UInt8)} (leaves : Leaves events pressed) :
    KeyStream events := by
  cases pressed with
  | none =>
    obtain ⟨strokes, rfl⟩ := leaves
    exact ⟨strokes, List.prefix_refl _⟩
  | some logicalKey =>
    obtain ⟨strokes, count, rfl⟩ := leaves
    apply Exists.intro (strokes ++ [⟨logicalKey, count⟩])
    apply Exists.intro [(.up, logicalKey)]
    rw [List.flatMap_append, List.flatMap_cons, List.flatMap_nil, List.append_nil,
      List.append_assoc]
    rfl

theorem leaves_nil : Leaves [] none := ⟨[], rfl⟩

theorem Leaves.down (leaves : Leaves events none) (logicalKey : List UInt8) :
    Leaves (events ++ [(.down, logicalKey)]) (some logicalKey) := by
  obtain ⟨strokes, rfl⟩ := leaves
  exact ⟨strokes, 0, rfl⟩

theorem Leaves.repeat (leaves : Leaves events (some logicalKey)) :
    Leaves (events ++ [(.repeat, logicalKey)]) (some logicalKey) := by
  obtain ⟨strokes, count, rfl⟩ := leaves
  apply Exists.intro strokes
  apply Exists.intro (count + 1)
  rw [List.append_assoc, List.cons_append, List.replicate_succ']

theorem Leaves.up (leaves : Leaves events (some logicalKey)) :
    Leaves (events ++ [(.up, logicalKey)]) none := by
  obtain ⟨strokes, count, rfl⟩ := leaves
  apply Exists.intro (strokes ++ [⟨logicalKey, count⟩])
  rw [List.flatMap_append, List.flatMap_cons, List.flatMap_nil, List.append_nil,
    List.append_assoc]
  rfl

theorem events_of_own (key : UInt32) (sent : List SentKey) (event : WaylandKeyEvent) :
    eventsOf key (sent ++ [(key, event)]) =
      eventsOf key sent ++ [(event.phase, event.logicalKey)] := by
  simp [eventsOf]

theorem events_of_other {key other : UInt32} (differs : other ≠ key) (sent : List SentKey)
    (event : WaylandKeyEvent) : eventsOf key (sent ++ [(other, event)]) = eventsOf key sent := by
  simp [eventsOf, differs]

/-! ### The repeat state -/

namespace WaylandRepeatState

/-- Nothing changed, or the generation is a later one. -/
def Advanced (before after : WaylandRepeatState) : Prop :=
  after = before ∨ before.generation.toNat < after.generation.toNat

variable {before repeats after : WaylandRepeatState}

theorem Advanced.refl (repeats : WaylandRepeatState) : repeats.Advanced repeats := .inl rfl

theorem Advanced.trans (first : before.Advanced repeats) (second : repeats.Advanced after) :
    before.Advanced after := by
  obtain rfl | earlier := first
  · exact second
  · obtain rfl | later := second
    · exact .inr earlier
    · exact .inr (Nat.lt_trans earlier later)

theorem Advanced.maximum (advanced : before.Advanced after)
    (exhausted : before.generation = maximumGeneration) :
    after.generation = maximumGeneration := by
  obtain rfl | more := advanced
  · exact exhausted
  · have bound := after.generation.toNat_lt
    have most : maximumGeneration.toNat = 18446744073709551615 := rfl
    rw [exhausted, most] at more
    omega

theorem advance_spec (repeats : WaylandRepeatState) :
    (repeats.advanceGeneration = .ok { repeats with generation := repeats.generation + 1 } ∧
      repeats.generation.toNat < (repeats.generation + 1).toNat) ∨
    ((∃ failure, repeats.advanceGeneration = .error failure) ∧
      repeats.generation = maximumGeneration) := by
  unfold advanceGeneration
  by_cases exhausted : repeats.generation = maximumGeneration
  · right
    rw [if_pos exhausted]
    exact ⟨⟨_, rfl⟩, exhausted⟩
  · left
    rw [if_neg exhausted]
    apply And.intro rfl
    have room : repeats.generation.toNat ≠ 18446744073709551615 :=
      fun same => exhausted (UInt64.toNat_inj.mp same)
    have bound := repeats.generation.toNat_lt
    rw [UInt64.toNat_add]
    have one : (1 : UInt64).toNat = 1 := rfl
    omega

/-- A change that goes along with a new generation. -/
theorem advance_changes {change : WaylandRepeatState → WaylandRepeatState}
    (changed : (repeats.advanceGeneration >>= fun repeats => pure (change repeats)) = .ok after)
    (keeps : ∀ repeats, (change repeats).generation = repeats.generation) :
    repeats.Advanced after ∧
      after = change { repeats with generation := repeats.generation + 1 } := by
  obtain ⟨advanced, more⟩ | ⟨⟨failure, failed⟩, -⟩ := repeats.advance_spec
  · rw [advanced] at changed
    obtain rfl := Except.ok.inj changed
    refine ⟨.inr ?_, rfl⟩
    rw [keeps]
    exact more
  · rw [failed] at changed
    cases changed

theorem configure_spec {rate delay : Int32} {now : Int}
    (configured : repeats.configure rate delay now = .ok after) :
    repeats.Advanced after ∧ after.candidate = repeats.candidate := by
  unfold configure at configured
  split at configured
  · cases configured
  split at configured
  · cases configured
  extract_lets interval delay at configured
  split at configured
  · obtain rfl := Except.ok.inj configured
    exact ⟨.refl _, rfl⟩
  · obtain ⟨advanced, rfl⟩ := advance_changes configured fun _ => rfl
    exact ⟨advanced, rfl⟩

theorem key_down_spec {key : UInt32} {repeatable : Bool} {now : Int}
    (pressed : repeats.keyDown key repeatable now = .ok after) :
    repeats.Advanced after ∧
      (after.candidate = repeats.candidate ∨ after.candidate = some key) := by
  unfold keyDown at pressed
  split at pressed
  · cases pressed
  split at pressed
  · obtain rfl := Except.ok.inj pressed
    exact ⟨.refl _, .inl rfl⟩
  · obtain ⟨advanced, rfl⟩ := advance_changes pressed fun _ => rfl
    exact ⟨advanced, .inr rfl⟩

theorem key_up_spec {key : UInt32} (released : repeats.keyUp key = .ok after) :
    repeats.Advanced after ∧ after.candidate ≠ some key ∧
      (after.candidate = repeats.candidate ∨ after.candidate = none) := by
  unfold keyUp at released
  split at released
  next other =>
    obtain rfl := Except.ok.inj released
    exact ⟨.refl _, other, .inl rfl⟩
  next =>
    obtain ⟨advanced, rfl⟩ := advance_changes released fun _ => rfl
    exact ⟨advanced, nofun, .inr rfl⟩

theorem cancel_spec (repeats : WaylandRepeatState) :
    (∃ after, repeats.cancel = .ok after ∧ repeats.Advanced after ∧ after.candidate = none) ∨
    ((∃ failure, repeats.cancel = .error failure) ∧ repeats.generation = maximumGeneration) := by
  unfold cancel
  by_cases empty : repeats.candidate = none
  · left
    rw [if_pos empty]
    exact ⟨repeats, rfl, .refl _, empty⟩
  · rw [if_neg empty]
    obtain ⟨advanced, more⟩ | ⟨⟨failure, failed⟩, exhausted⟩ := repeats.advance_spec
    · left
      rw [advanced]
      exact ⟨_, rfl, .inr more, rfl⟩
    · right
      rw [failed]
      exact ⟨⟨_, rfl⟩, exhausted⟩

end WaylandRepeatState

/-! ### The invariant -/

namespace WaylandKeyWindow

/-- The generations of the repeat state are used up, and the window has failed for it. -/
def Exhausted (window : WaylandKeyWindow) : Prop :=
  window.repeats.generation = WaylandRepeatState.maximumGeneration ∧ window.running = false

/-- What holds of a window whatever has happened to it. -/
structure Sound (window : WaylandKeyWindow) : Prop where
  earlier : ∀ period ∈ window.earlier, ∀ key, KeyStream (eventsOf key period)
  current : ∀ key, KeyStream (eventsOf key window.current)
  live : window.running = true → ∀ key,
    Leaves (eventsOf key window.current) (window.keyboard.pressed key)
  unfocused : window.keyboard.focused = false → ∀ key, window.keyboard.pressed key = none
  candidate : ∀ key, window.repeats.candidate = some key →
    window.keyboard.pressed key ≠ none ∨ window.Exhausted
  stopped : window.nativeRunning = false → window.running = false
  timer : window.running = true → window.timer.2 = window.repeats.generation

variable {window next : WaylandKeyWindow}

theorem Sound.start : Sound {} where
  earlier := nofun
  current _ := leaves_nil.stream
  live _ _ := leaves_nil
  unfocused _ _ := rfl
  candidate := nofun
  stopped := nofun
  timer _ := rfl

theorem Sound.fail (sound : window.Sound) : window.failNative.Sound where
  earlier := sound.earlier
  current := sound.current
  live := nofun
  unfocused := sound.unfocused
  candidate key same := (sound.candidate key same).imp_right fun exhausted => ⟨exhausted.1, rfl⟩
  stopped _ := rfl
  timer := nofun

/-- No key repeats, as far as generations last. -/
def Canceled (window : WaylandKeyWindow) : Prop :=
  window.repeats.candidate = none ∨ window.Exhausted

/-- The end of a period in which the keys are let go. -/
theorem Sound.released (sound : window.Sound) (canceled : window.Canceled)
    {keyboard : WaylandKeyboardState} (released : ∀ key, keyboard.pressed key = none) :
    ({ window with keyboard }.divide).Sound where
  earlier period member key := by
    obtain before | last := List.mem_append.mp member
    · exact sound.earlier period before key
    · rw [List.mem_singleton.mp last]
      exact sound.current key
  current _ := leaves_nil.stream
  live _ key := by
    have none := released key
    change Leaves [] (keyboard.pressed key)
    rw [none]
    exact leaves_nil
  unfocused _ := released
  candidate key same := by
    obtain empty | exhausted := canceled
    · rw [show window.repeats.candidate = some key from same] at empty
      cases empty
    · exact .inr exhausted
  stopped := sound.stopped
  timer := sound.timer

/-- What a change of the repeat state and the timer leaves. -/
theorem change_repeat_spec (window : WaylandKeyWindow)
    (changed : Except Failure WaylandRepeatState) (always : Bool) (answer : TimerAnswer) :
    ∃ returned repeats timer,
      window.changeRepeat changed always answer = (returned, { window with repeats, timer }) ∧
      (changed = .ok repeats ∨
        returned = false ∧ repeats = window.repeats ∧ ∃ failure, changed = .error failure) ∧
      (returned = true → window.timer.2 = window.repeats.generation →
        timer.2 = repeats.generation) := by
  unfold changeRepeat
  cases changed with
  | error failure =>
    exact ⟨false, window.repeats, window.timer, rfl, .inr ⟨rfl, rfl, failure, rfl⟩, nofun⟩
  | ok repeats =>
    dsimp only
    split
    next same =>
      refine ⟨true, repeats, window.timer, rfl, .inl rfl, fun _ timed => ?_⟩
      rw [timed]
      exact same.2.symm
    next =>
      cases synced : { window with repeats }.syncRepeatTimer answer with
      | error failure => exact ⟨false, repeats, window.timer, rfl, .inl rfl, nofun⟩
      | ok next =>
        unfold syncRepeatTimer at synced
        cases scheduled : repeats.schedule answer.now with
        | error failure =>
          rw [scheduled] at synced
          cases synced
        | ok schedule =>
          rw [scheduled] at synced
          change (if ¬ answer.accepts then _ else _) = _ at synced
          split at synced
          · cases synced
          · obtain rfl := Except.ok.inj synced
            exact ⟨true, repeats, (schedule, repeats.generation), rfl, .inl rfl, fun _ _ => rfl⟩

/-- A change after which the key that repeats is still pressed. -/
theorem Sound.changed (sound : window.Sound) {repeats : WaylandRepeatState}
    {timer : Option WaylandRepeatSchedule × UInt64}
    (candidate : ∀ key, repeats.candidate = some key →
      window.keyboard.pressed key ≠ none ∨ { window with repeats, timer }.Exhausted)
    (timed : window.running = true → timer.2 = repeats.generation) :
    { window with repeats, timer }.Sound :=
  { sound with candidate, timer := timed }

theorem cancel_repeat_spec (window : WaylandKeyWindow) (answer : TimerAnswer) :
    ∃ returned repeats timer,
      window.cancelRepeat answer = (returned, { window with repeats, timer }) ∧
      window.repeats.Advanced repeats ∧
      (repeats.candidate = none ∨ returned = false ∧ repeats = window.repeats ∧
        repeats.generation = WaylandRepeatState.maximumGeneration) ∧
      (returned = true → window.timer.2 = window.repeats.generation →
        timer.2 = repeats.generation) := by
  obtain ⟨returned, repeats, timer, ran, changed, timed⟩ :=
    window.change_repeat_spec window.repeats.cancel true answer
  refine ⟨returned, repeats, timer, ran, ?_⟩
  obtain ⟨after, canceled, advanced, empty⟩ | ⟨⟨failure, failed⟩, exhausted⟩ :=
    window.repeats.cancel_spec
  · obtain same | ⟨-, -, failure, failed⟩ := changed
    · rw [canceled] at same
      obtain rfl := Except.ok.inj same
      exact ⟨advanced, .inl empty, timed⟩
    · rw [canceled] at failed
      cases failed
  · obtain same | ⟨stopped, rfl, -⟩ := changed
    · rw [failed] at same
      cases same
    · exact ⟨.refl _, .inr ⟨stopped, rfl, exhausted⟩, timed⟩

/-- What `cancel_repeat_noexcept` leaves. -/
theorem Sound.cancel_noexcept (sound : window.Sound) (answer : TimerAnswer) :
    (window.cancelRepeatNoexcept answer).Sound ∧ (window.cancelRepeatNoexcept answer).Canceled ∧
      (window.cancelRepeatNoexcept answer).keyboard = window.keyboard ∧
      window.repeats.Advanced (window.cancelRepeatNoexcept answer).repeats := by
  obtain ⟨returned, repeats, timer, ran, advanced, canceled, timed⟩ :=
    window.cancel_repeat_spec answer
  unfold cancelRepeatNoexcept
  rw [ran]
  cases returned with
  | true =>
    obtain empty | ⟨impossible, -⟩ := canceled
    · refine ⟨sound.changed ?_ fun running => timed rfl (sound.timer running), .inl empty, rfl,
        advanced⟩
      intro key same
      rw [empty] at same
      cases same
    · cases impossible
  | false =>
    dsimp only
    have failed : ∀ next : WaylandKeyWindow,
        next = { window with repeats, timer, running := false } → next.Sound ∧ next.Canceled ∧
          next.keyboard = window.keyboard ∧ window.repeats.Advanced next.repeats := by
      rintro _ rfl
      have held : { window with repeats, timer, running := false }.Canceled := by
        obtain empty | ⟨-, -, exhausted⟩ := canceled
        · exact .inl empty
        · exact .inr ⟨exhausted, rfl⟩
      refine ⟨⟨sound.earlier, sound.current, nofun, sound.unfocused, ?_, fun _ => rfl, nofun⟩, held,
        rfl, advanced⟩
      intro key same
      obtain empty | exhausted := held
      · rw [show repeats.candidate = some key from same] at empty
        cases empty
      · exact .inr exhausted
    by_cases native : window.nativeRunning
    · rw [if_pos native]
      exact failed _ rfl
    · rw [if_neg native]
      apply failed
      have stopped := sound.stopped (Bool.eq_false_iff.mpr native)
      rw [← stopped]

theorem Sound.destroy_xkb (sound : window.Sound) (answer : TimerAnswer) (xkb bound : Bool) :
    { window.destroyXkb answer with xkb, bound }.Sound ∧
      window.repeats.Advanced (window.destroyXkb answer).repeats := by
  obtain ⟨kept, canceled, -, advanced⟩ := sound.cancel_noexcept answer
  have released := kept.released canceled
    (show ∀ key, (window.cancelRepeatNoexcept answer).keyboard.clearPressed.pressed key = none from
      fun _ => rfl)
  exact ⟨{ released with }, advanced⟩

theorem Sound.destroy_keyboard (sound : window.Sound) (first second : TimerAnswer) :
    (window.destroyKeyboard first second).Sound ∧
      window.repeats.Advanced (window.destroyKeyboard first second).repeats := by
  obtain ⟨kept, canceled, same, advanced⟩ := sound.cancel_noexcept first
  unfold destroyKeyboard
  dsimp only
  split
  next =>
    have lost := kept.released canceled
      (show ∀ key, (window.cancelRepeatNoexcept first).keyboard.focusLost.pressed key = none from
        fun _ => rfl)
    obtain ⟨destroyed, further⟩ := Sound.destroy_xkb lost second false false
    exact ⟨{ destroyed with }, advanced.trans further⟩
  next unfocused =>
    have pressed := kept.unfocused (Bool.eq_false_iff.mpr unfocused)
    have cleared : { window.cancelRepeatNoexcept first with
        keyboard := (window.cancelRepeatNoexcept first).keyboard.clearPressed }.Sound :=
      { kept with
        live := fun running key => by
          have own := kept.live running key
          rw [pressed key] at own
          exact own
        unfocused := fun _ _ => rfl
        candidate := fun key repeats => by
          obtain same | exhausted := kept.candidate key repeats
          · exact absurd (pressed key) same
          · exact .inr exhausted }
    obtain ⟨destroyed, further⟩ := Sound.destroy_xkb cleared second false false
    exact ⟨{ destroyed with }, advanced.trans further⟩

/-! ### Sending -/

/-- What a handler makes of the states of the keyboard and of repeating when it fails. -/
theorem Sound.failed (sound : window.Sound) {keyboard : WaylandKeyboardState}
    {repeats : WaylandRepeatState} {timer : Option WaylandRepeatSchedule × UInt64}
    (unfocused : keyboard.focused = false → ∀ key, keyboard.pressed key = none)
    (candidate : ∀ key, repeats.candidate = some key → keyboard.pressed key ≠ none ∨
      repeats.generation = WaylandRepeatState.maximumGeneration) :
    { window with keyboard, repeats, timer }.failNative.Sound where
  earlier := sound.earlier
  current := sound.current
  live := nofun
  unfocused := unfocused
  candidate key same := (candidate key same).imp_right fun exhausted => ⟨exhausted, rfl⟩
  stopped _ := rfl
  timer := nofun

/-- A key event is sent and says what becomes of its key. -/
theorem Sound.send (sound : window.Sound) {keyboard : WaylandKeyboardState}
    {repeats : WaylandRepeatState} {timer : Option WaylandRepeatSchedule × UInt64} {key : UInt32}
    {event : WaylandKeyEvent} (posted : Bool)
    (others : ∀ other, other ≠ key → keyboard.pressed other = window.keyboard.pressed other)
    (own : ∀ events, Leaves events (window.keyboard.pressed key) →
      Leaves (events ++ [(event.phase, event.logicalKey)]) (keyboard.pressed key))
    (unfocused : keyboard.focused = false → ∀ key, keyboard.pressed key = none)
    (candidate : ∀ key, repeats.candidate = some key →
      keyboard.pressed key ≠ none ∨ { window with keyboard, repeats, timer }.Exhausted)
    (timed : window.running = true → timer.2 = repeats.generation) :
    ({ window with keyboard, repeats, timer }.sendKey key event posted).Sound := by
  unfold sendKey
  by_cases running : window.running
  · rw [if_neg (not_not_intro running)]
    have live : ∀ other, Leaves (eventsOf other (window.current ++ [(key, event)]))
        (keyboard.pressed other) := by
      intro other
      by_cases same : key = other
      · subst same
        rw [events_of_own]
        exact own _ (sound.live running key)
      · rw [events_of_other same, others other (Ne.symm same)]
        exact sound.live running other
    refine ⟨sound.earlier, fun other => (live other).stream, fun _ => live, unfocused, ?_, ?_, ?_⟩
    · intro other same
      obtain pressed | exhausted := candidate other same
      · exact .inl pressed
      · rw [show window.running = false from exhausted.2] at running
        cases running
    · intro stopped
      rw [sound.stopped stopped] at running
      cases running
    · exact fun _ => timed running
  · rw [if_pos running]
    exact ⟨sound.earlier, sound.current, fun other => absurd other running, unfocused, candidate,
      sound.stopped, timed⟩

/-- What the keyboard state says to a press. -/
theorem key_down_keyboard {keyboard next : WaylandKeyboardState} {key : UInt32}
    {text : List UInt8} {modifiers : WaylandKeyModifiers} {event : Option WaylandKeyEvent}
    (pressed : keyboard.keyDown key text modifiers = .ok (event, next)) :
    (event = none ∧ next = keyboard) ∨
    (event = some ⟨text, .down, modifiers⟩ ∧ keyboard.focused = true ∧ keyboard.pressed key = none ∧
      next = { keyboard with pressed := Function.update keyboard.pressed key (some text) }) := by
  unfold WaylandKeyboardState.keyDown at pressed
  split at pressed
  next =>
    obtain ⟨rfl, rfl⟩ := Prod.mk.inj (Except.ok.inj pressed)
    exact .inl ⟨rfl, rfl⟩
  next focused =>
    split at pressed
    · cases pressed
    split at pressed
    · cases pressed
    next released =>
      obtain ⟨rfl, rfl⟩ := Prod.mk.inj (Except.ok.inj pressed)
      exact .inr ⟨rfl, not_not.mp focused, released, rfl⟩

/-- What it says to a release. -/
theorem key_up_keyboard (keyboard : WaylandKeyboardState) (key : UInt32)
    (modifiers : WaylandKeyModifiers) :
    keyboard.keyUp key modifiers = (none, keyboard) ∨
    ∃ text, keyboard.focused = true ∧ keyboard.pressed key = some text ∧
      keyboard.keyUp key modifiers = (some ⟨text, .up, modifiers⟩,
        { keyboard with pressed := Function.update keyboard.pressed key none }) := by
  unfold WaylandKeyboardState.keyUp
  split
  next => exact .inl rfl
  next focused =>
    split
    next => exact .inl rfl
    next text pressed => exact .inr ⟨text, not_not.mp focused, pressed, rfl⟩

theorem send_key_repeats (key : UInt32) (event : WaylandKeyEvent) (posted : Bool) :
    (window.sendKey key event posted).repeats = window.repeats := by
  unfold sendKey
  split <;> rfl

theorem send_key_keyboard (key : UInt32) (event : WaylandKeyEvent) (posted : Bool) :
    (window.sendKey key event posted).keyboard = window.keyboard := by
  unfold sendKey
  split <;> rfl

theorem Sound.key_pressed (sound : window.Sound) (key : UInt32) (reading : KeyReading) :
    (window.keyPressed key reading).Sound ∧
      window.repeats.Advanced (window.keyPressed key reading).repeats := by
  unfold keyPressed
  split
  · exact ⟨sound.fail, .refl _⟩
  next text _ =>
    split
    · exact ⟨sound.fail, .refl _⟩
    next keyboard pressed =>
      obtain ⟨-, rfl⟩ | ⟨impossible, -⟩ := key_down_keyboard pressed
      · exact ⟨{ sound with }, .refl _⟩
      · cases impossible
    next event keyboard pressed =>
      obtain ⟨impossible, -⟩ | ⟨same, focused, released, rfl⟩ := key_down_keyboard pressed
      · cases impossible
      obtain rfl := Option.some.inj same
      obtain ⟨returned, repeats, timer, ran, changed, timed⟩ := change_repeat_spec
        { window with keyboard := { window.keyboard with
            pressed := Function.update window.keyboard.pressed key (some text) } }
        (window.repeats.keyDown key reading.repeatable reading.answer.now) false reading.answer
      dsimp only
      rw [ran]
      have step : window.repeats.Advanced repeats ∧
          (repeats.candidate = window.repeats.candidate ∨ repeats.candidate = some key) := by
        obtain down | ⟨-, rfl, -⟩ := changed
        · exact WaylandRepeatState.key_down_spec down
        · exact ⟨.refl _, .inl rfl⟩
      obtain ⟨advanced, repeating⟩ := step
      have candidate : ∀ other, repeats.candidate = some other →
          Function.update window.keyboard.pressed key (some text) other ≠ none ∨
            repeats.generation = WaylandRepeatState.maximumGeneration ∧
              window.running = false := by
        intro other own
        by_cases same : other = key
        · subst same
          rw [Function.update_self]
          exact .inl nofun
        · rw [Function.update_of_ne same]
          obtain kept | new := repeating
          · rw [kept] at own
            exact (sound.candidate other own).imp_right fun exhausted =>
              ⟨advanced.maximum exhausted.1, exhausted.2⟩
          · rw [new] at own
            exact absurd (Option.some.inj own).symm same
      have unfocused : window.keyboard.focused = false →
          ∀ other, Function.update window.keyboard.pressed key (some text) other = none := by
        intro lost
        rw [focused] at lost
        cases lost
      cases returned with
      | false =>
        exact ⟨sound.failed unfocused fun other own => (candidate other own).imp_right And.left,
          advanced⟩
      | true =>
        constructor
        · apply sound.send reading.posted _ _ unfocused candidate
          · exact fun running => timed rfl (sound.timer running)
          · intro other differs
            exact Function.update_of_ne differs _ _
          · intro events leaves
            rw [released] at leaves
            change Leaves _ (Function.update window.keyboard.pressed key (some text) key)
            rw [Function.update_self]
            exact leaves.down text
        · rw [send_key_repeats]
          exact advanced

theorem Sound.key_released (sound : window.Sound) (key : UInt32) (reading : KeyReading) :
    (window.keyReleased key reading).Sound ∧
      window.repeats.Advanced (window.keyReleased key reading).repeats := by
  obtain ⟨returned, repeats, timer, ran, changed, timed⟩ :=
    window.change_repeat_spec (window.repeats.keyUp key) false reading.answer
  have candidate : window.repeats.Advanced repeats ∧ (returned = true →
      repeats.candidate ≠ some key) ∧
      ∀ other, repeats.candidate = some other → window.keyboard.pressed other ≠ none ∨
        repeats.generation = WaylandRepeatState.maximumGeneration ∧ window.running = false := by
    obtain up | ⟨stopped, rfl, -⟩ := changed
    · obtain ⟨advanced, other, same | empty⟩ := WaylandRepeatState.key_up_spec up
      · refine ⟨advanced, fun _ => other, ?_⟩
        intro other own
        rw [same] at own
        exact (sound.candidate other own).imp_right fun exhausted =>
          ⟨advanced.maximum exhausted.1, exhausted.2⟩
      · refine ⟨advanced, fun _ => other, ?_⟩
        intro other own
        rw [empty] at own
        cases own
    · refine ⟨.refl _, ?_, sound.candidate⟩
      rw [stopped]
      nofun
  obtain ⟨advanced, letGo, candidate⟩ := candidate
  unfold keyReleased
  rw [ran]
  cases returned with
  | false =>
    exact ⟨sound.failed sound.unfocused fun other own => (candidate other own).imp_right And.left,
      advanced⟩
  | true =>
    dsimp only
    have timely := fun running => timed rfl (sound.timer running)
    obtain none | ⟨text, focused, pressed, up⟩ :=
      key_up_keyboard window.keyboard key reading.modifiers
    · rw [none]
      exact ⟨{ sound.changed candidate timely with }, advanced⟩
    · rw [up]
      dsimp only
      constructor
      · apply sound.send reading.posted _ _ _ _ timely
        · intro other differs
          exact Function.update_of_ne differs _ _
        · intro events leaves
          rw [pressed] at leaves
          change Leaves _ (Function.update window.keyboard.pressed key none key)
          rw [Function.update_self]
          exact leaves.up
        · intro lost
          rw [focused] at lost
          cases lost
        · intro other own
          have differs : other ≠ key := by
            rintro rfl
            exact letGo rfl own
          change Function.update window.keyboard.pressed key none other ≠ none ∨ _
          rw [Function.update_of_ne differs]
          exact candidate other own
      · rw [send_key_repeats]
        exact advanced

theorem Sound.handle_key (sound : window.Sound) (key state : UInt32) (reading : KeyReading) :
    (window.handleKey key state reading).Sound ∧
      window.repeats.Advanced (window.handleKey key state reading).repeats := by
  unfold handleKey
  split_ifs
  · exact ⟨sound.fail, .refl _⟩
  · exact sound.key_pressed key reading
  · exact sound.key_released key reading
  · exact ⟨sound.fail, .refl _⟩

theorem Sound.handle_repeat_info (sound : window.Sound) (rate delay : Int32)
    (answer : TimerAnswer) :
    (window.handleRepeatInfo rate delay answer).Sound ∧
      window.repeats.Advanced (window.handleRepeatInfo rate delay answer).repeats := by
  obtain ⟨returned, repeats, timer, ran, changed, timed⟩ :=
    window.change_repeat_spec (window.repeats.configure rate delay answer.now) true answer
  have step : window.repeats.Advanced repeats ∧ repeats.candidate = window.repeats.candidate := by
    obtain configured | ⟨-, rfl, -⟩ := changed
    · exact WaylandRepeatState.configure_spec configured
    · exact ⟨.refl _, rfl⟩
  obtain ⟨advanced, same⟩ := step
  have candidate : ∀ key, repeats.candidate = some key → window.keyboard.pressed key ≠ none ∨
      repeats.generation = WaylandRepeatState.maximumGeneration ∧ window.running = false := by
    intro key own
    rw [same] at own
    exact (sound.candidate key own).imp_right fun exhausted =>
      ⟨advanced.maximum exhausted.1, exhausted.2⟩
  unfold handleRepeatInfo
  rw [ran]
  cases returned with
  | false =>
    exact ⟨sound.failed sound.unfocused fun key own => (candidate key own).imp_right And.left,
      advanced⟩
  | true => exact ⟨sound.changed candidate fun running => timed rfl (sound.timer running), advanced⟩

theorem Sound.handle_leave (sound : window.Sound) (own : Bool) (answer : TimerAnswer) :
    (window.handleLeave own answer).Sound ∧
      window.repeats.Advanced (window.handleLeave own answer).repeats := by
  obtain ⟨returned, repeats, timer, ran, advanced, canceled, timed⟩ :=
    window.cancel_repeat_spec answer
  unfold handleLeave
  by_cases mine : own
  · rw [if_neg (not_not_intro mine), ran]
    cases returned with
    | false =>
      refine ⟨sound.failed sound.unfocused ?_, advanced⟩
      intro key same
      obtain empty | ⟨-, -, exhausted⟩ := canceled
      · rw [empty] at same
        cases same
      · exact .inr exhausted
    | true =>
      obtain empty | ⟨impossible, -⟩ := canceled
      · have kept : { window with repeats, timer }.Sound := by
          apply sound.changed
          · intro key same
            rw [empty] at same
            cases same
          · exact fun running => timed rfl (sound.timer running)
        exact ⟨kept.released (.inl empty) fun _ => rfl, advanced⟩
      · cases impossible
  · rw [if_pos mine]
    exact ⟨sound, .refl _⟩

theorem Sound.handle_enter (sound : window.Sound) (own : Bool) :
    (window.handleEnter own).Sound ∧ (window.handleEnter own).repeats = window.repeats := by
  unfold handleEnter
  split_ifs with mine focused
  · exact ⟨sound, rfl⟩
  · have pressed := sound.unfocused (Bool.eq_false_iff.mpr focused)
    have canceled : window.Canceled := by
      cases repeating : window.repeats.candidate with
      | none => exact .inl repeating
      | some key =>
        obtain own | exhausted := sound.candidate key repeating
        · exact absurd (pressed key) own
        · exact .inr exhausted
    exact ⟨sound.released canceled pressed, rfl⟩
  · exact ⟨sound, rfl⟩

theorem Sound.deliver_repeats (key : UInt32) (modifiers : WaylandKeyModifiers)
    (turns : List Bool) : ∀ {window : WaylandKeyWindow}, window.Sound →
    (deliverRepeats key modifiers turns window).Sound ∧
      (deliverRepeats key modifiers turns window).repeats = window.repeats := by
  induction turns with
  | nil => exact fun sound => ⟨sound, rfl⟩
  | cons posted rest ih =>
    intro window sound
    rw [deliverRepeats]
    unfold WaylandKeyboardState.keyRepeat
    cases focused : window.keyboard.focused with
    | false => exact ih sound
    | true =>
      rw [if_neg (not_not_intro rfl)]
      cases pressed : window.keyboard.pressed key with
      | none => exact ih sound
      | some text =>
        have sent : (window.sendKey key ⟨text, .repeat, modifiers⟩ posted).Sound := by
          apply sound.send posted (fun _ _ => rfl) _ sound.unfocused sound.candidate sound.timer
          intro events leaves
          rw [pressed] at leaves ⊢
          exact leaves.repeat
        obtain ⟨kept, same⟩ := ih sent
        exact ⟨kept, same.trans (send_key_repeats key _ posted)⟩

theorem Sound.repeat_ready (sound : window.Sound) (generation : UInt64) (read : TimerRead)
    (modifiers : WaylandKeyModifiers) (posted : Nat → Bool) :
    (window.repeatReady generation read modifiers posted).Sound ∧
      (window.repeatReady generation read modifiers posted).repeats = window.repeats := by
  unfold repeatReady
  split_ifs
  · exact ⟨sound, rfl⟩
  · cases read with
    | again => exact ⟨sound, rfl⟩
    | failed => exact ⟨sound.fail, rfl⟩
    | expirations count =>
      dsimp only
      split
      · exact ⟨sound, rfl⟩
      · exact sound.deliver_repeats _ modifiers _

theorem Sound.capabilities_changed (sound : window.Sound) (available created listening : Bool)
    (first second : TimerAnswer) :
    let next := window.seatKeyboardCapabilitiesChanged available created listening first second
    next.Sound ∧ window.repeats.Advanced next.repeats := by
  have bound : { window with bound := true }.Sound := { sound with }
  unfold seatKeyboardCapabilitiesChanged
  split_ifs with there kept new listens
  · exact ⟨sound, .refl _⟩
  · exact ⟨bound, .refl _⟩
  · obtain ⟨kept, advanced⟩ := bound.destroy_keyboard first second
    exact ⟨kept.fail, advanced⟩
  · exact ⟨sound.fail, .refl _⟩
  · exact sound.destroy_keyboard first second

theorem Sound.shutdown_native (sound : window.Sound) (first second : TimerAnswer) :
    (window.shutdownNative first second).Sound ∧
      window.repeats.Advanced (window.shutdownNative first second).repeats := by
  unfold shutdownNative
  dsimp only
  split_ifs
  · have stopped : { window with running := false, nativeRunning := false }.Sound :=
      { sound.fail with stopped := fun _ => rfl }
    exact stopped.destroy_keyboard first second
  · exact ⟨sound.fail, .refl _⟩

/-- One step of the window. -/
theorem Sound.perform (sound : window.Sound) (action : KeyAction) :
    (window.perform action).Sound ∧ window.repeats.Advanced (window.perform action).repeats := by
  cases action with
  | keymap accepted answer =>
    change (window.handleKeymap accepted answer).Sound ∧
      window.repeats.Advanced (window.handleKeymap accepted answer).repeats
    unfold handleKeymap
    split_ifs
    · obtain ⟨kept, advanced⟩ := sound.destroy_xkb answer true window.bound
      exact ⟨{ kept with }, advanced⟩
    · exact ⟨sound.fail, .refl _⟩
  | enter own =>
    obtain ⟨kept, same⟩ := sound.handle_enter own
    exact ⟨kept, .inl same⟩
  | leave own answer => exact sound.handle_leave own answer
  | key key state reading => exact sound.handle_key key state reading
  | repeatInfo rate delay answer => exact sound.handle_repeat_info rate delay answer
  | repeatReady generation read modifiers posted =>
    obtain ⟨kept, same⟩ := sound.repeat_ready generation read modifiers posted
    exact ⟨kept, .inl same⟩
  | capabilities available created listening first second =>
    exact sound.capabilities_changed available created listening first second
  | shutdownNative first second => exact sound.shutdown_native first second
  | stop => exact ⟨sound.fail, .refl _⟩

theorem Sound.of_reachable (reached : Reachable waylandKeyMachine window) : window.Sound := by
  apply reached.invariant Sound
  · rintro _ rfl
    exact .start
  · intro state action next sound _ stepped
    obtain rfl := Option.some.inj stepped
    exact (sound.perform action).1

/-- What a run makes of the repeat state. -/
theorem advanced_along {first last : WaylandKeyWindow} (sound : first.Sound)
    (reached : Reachable (waylandKeyMachine.startedIn first) last) :
    last.Sound ∧ first.repeats.Advanced last.repeats := by
  apply reached.invariant fun last => last.Sound ∧ first.repeats.Advanced last.repeats
  · rintro _ rfl
    exact ⟨sound, .refl _⟩
  · rintro state action next ⟨kept, advanced⟩ _ stepped
    obtain rfl := Option.some.inj stepped
    obtain ⟨after, further⟩ := kept.perform action
    exact ⟨after, advanced.trans further⟩

/-! ### Running out of generations -/

/-- A timer that is set at time zero. -/
def promptAnswer : TimerAnswer := ⟨0, true⟩

def plainReading : KeyReading := ⟨.ok [0x61], {}, true, promptAnswer, true⟩

def pressA : KeyAction := .key 30 1 plainReading

def releaseA : KeyAction := .key 30 0 plainReading

/-- A keyboard is set up, a key is pressed and released so many times and pressed once
more, and another keymap comes. -/
def strokesThenKeymap (count : Nat) : List KeyAction :=
  [.capabilities true true true promptAnswer promptAnswer, .keymap true promptAnswer,
    .enter true, .repeatInfo 25 600 promptAnswer] ++
  (List.replicate count [pressA, releaseA]).flatten ++ [pressA, .keymap true promptAnswer]

/-- The key is up. -/
structure Idle (window : WaylandKeyWindow) (generation : Nat) : Prop where
  xkb : window.xkb = true
  focused : window.keyboard.focused = true
  released : window.keyboard.pressed 30 = none
  candidate : window.repeats.candidate = none
  generation : window.repeats.generation.toNat = generation

/-- The key is down and repeats. -/
structure Repeating (window : WaylandKeyWindow) (generation : Nat) : Prop where
  xkb : window.xkb = true
  focused : window.keyboard.focused = true
  pressed : window.keyboard.pressed 30 = some [0x61]
  candidate : window.repeats.candidate = some 30
  time : window.repeats.keyDownTime = 0
  generation : window.repeats.generation.toNat = generation

theorem schedule_prompt {repeats : WaylandRepeatState}
    (time : repeats.candidate ≠ none → repeats.keyDownTime = 0) :
    ∃ schedule, repeats.schedule 0 = .ok schedule := by
  unfold WaylandRepeatState.schedule
  rw [if_neg]
  · cases repeats.candidate with
    | none => exact ⟨_, rfl⟩
    | some key =>
      dsimp only
      split
      · exact ⟨_, rfl⟩
      · exact ⟨_, rfl⟩
  · rintro (negative | ⟨some, late⟩)
    · exact absurd negative (by decide)
    · have zero := time (Option.isSome_iff_ne_none.mp some)
      rw [zero] at late
      exact absurd late (by decide)

/-- A change of the repeat state goes through where the timer is set at time zero. -/
theorem change_prompt {repeats : WaylandRepeatState}
    (time : repeats.candidate ≠ none → repeats.keyDownTime = 0) (always : Bool) :
    ∃ timer, window.changeRepeat (.ok repeats) always promptAnswer =
      (true, { window with repeats, timer }) := by
  obtain ⟨schedule, scheduled⟩ := schedule_prompt time
  have synced : { window with repeats }.syncRepeatTimer promptAnswer =
      .ok { window with repeats, timer := (schedule, repeats.generation) } := by
    unfold syncRepeatTimer
    rw [show repeats.schedule promptAnswer.now = .ok schedule from scheduled]
    rfl
  unfold changeRepeat
  dsimp only
  split
  · exact ⟨window.timer, rfl⟩
  · rw [synced]
    exact ⟨_, rfl⟩

theorem advance_room {repeats : WaylandRepeatState}
    (room : repeats.generation.toNat < 18446744073709551615) :
    repeats.advanceGeneration = .ok { repeats with generation := repeats.generation + 1 } ∧
      (repeats.generation + 1).toNat = repeats.generation.toNat + 1 := by
  constructor
  · apply if_neg
    intro exhausted
    rw [exhausted] at room
    exact absurd room (by decide)
  · rw [UInt64.toNat_add]
    have one : (1 : UInt64).toNat = 1 := rfl
    omega

theorem send_key_xkb (key : UInt32) (event : WaylandKeyEvent) (posted : Bool) :
    (window.sendKey key event posted).xkb = window.xkb := by
  unfold sendKey
  split <;> rfl

theorem Idle.press {generation : Nat} (idle : window.Idle generation)
    (room : generation < 18446744073709551615) :
    (window.perform pressA).Repeating (generation + 1) := by
  obtain ⟨advanced, next⟩ := @advance_room window.repeats (by
    rw [idle.generation]
    exact room)
  have down : window.keyboard.keyDown 30 [0x61] {} = .ok (some ⟨[0x61], .down, {}⟩,
      { window.keyboard with
        pressed := Function.update window.keyboard.pressed 30 (some [0x61]) }) := by
    unfold WaylandKeyboardState.keyDown
    rw [if_neg (not_not_intro idle.focused), if_neg (by decide), idle.released]
  have repeats : window.repeats.keyDown 30 true 0 = .ok { window.repeats with
      generation := window.repeats.generation + 1, candidate := some 30, keyDownTime := 0 } := by
    unfold WaylandRepeatState.keyDown
    rw [if_neg (by decide), if_neg (by decide), advanced]
    rfl
  obtain ⟨timer, changed⟩ := @change_prompt
    { window with keyboard := { window.keyboard with
        pressed := Function.update window.keyboard.pressed 30 (some [0x61]) } }
    { window.repeats with
      generation := window.repeats.generation + 1, candidate := some 30, keyDownTime := 0 }
    (fun _ => rfl) false
  have pressed : window.perform pressA = window.keyPressed 30 plainReading := by
    change window.handleKey 30 1 plainReading = _
    unfold handleKey
    rw [if_neg, if_pos rfl]
    rintro (missing | large)
    · exact missing idle.xkb
    · exact absurd large (by decide)
  rw [pressed]
  unfold keyPressed
  simp only [plainReading, promptAnswer] at changed ⊢
  rw [down]
  dsimp only
  rw [repeats, changed]
  dsimp only
  constructor
  · rw [send_key_xkb]
    exact idle.xkb
  · rw [send_key_keyboard]
    exact idle.focused
  · rw [send_key_keyboard]
    exact Function.update_self (30 : UInt32) (some [0x61]) window.keyboard.pressed
  · rw [send_key_repeats]
  · rw [send_key_repeats]
  · rw [send_key_repeats]
    exact next.trans (congrArg (· + 1) idle.generation)

theorem Repeating.release {generation : Nat} (repeating : window.Repeating generation)
    (room : generation < 18446744073709551615) :
    (window.perform releaseA).Idle (generation + 1) := by
  obtain ⟨advanced, next⟩ := @advance_room window.repeats (by
    rw [repeating.generation]
    exact room)
  have up : window.keyboard.keyUp 30 {} = (some ⟨[0x61], .up, {}⟩,
      { window.keyboard with pressed := Function.update window.keyboard.pressed 30 none }) := by
    unfold WaylandKeyboardState.keyUp
    rw [if_neg (not_not_intro repeating.focused), repeating.pressed]
  have repeats : window.repeats.keyUp 30 = .ok { window.repeats with
      generation := window.repeats.generation + 1, candidate := none } := by
    unfold WaylandRepeatState.keyUp
    rw [if_neg (not_not_intro repeating.candidate), advanced]
    rfl
  obtain ⟨timer, changed⟩ := @change_prompt window
    { window.repeats with generation := window.repeats.generation + 1, candidate := none }
    (fun some => absurd rfl some) false
  have released : window.perform releaseA = window.keyReleased 30 plainReading := by
    change window.handleKey 30 0 plainReading = _
    unfold handleKey
    rw [if_neg, if_neg (by decide), if_pos rfl]
    rintro (missing | large)
    · exact missing repeating.xkb
    · exact absurd large (by decide)
  rw [released]
  unfold keyReleased
  simp only [plainReading, promptAnswer] at changed ⊢
  rw [repeats, changed]
  dsimp only
  rw [up]
  dsimp only
  constructor
  · rw [send_key_xkb]
    exact repeating.xkb
  · rw [send_key_keyboard]
    exact repeating.focused
  · rw [send_key_keyboard]
    exact Function.update_self (30 : UInt32) none window.keyboard.pressed
  · rw [send_key_repeats]
  · rw [send_key_repeats]
    exact next.trans (congrArg (· + 1) repeating.generation)

/-- Presses and releases use up two generations each. -/
theorem Idle.strokes (count : Nat) : ∀ {window : WaylandKeyWindow} {generation : Nat},
    window.Idle generation → generation + 2 * count < 18446744073709551615 →
    ∀ {rest : List KeyAction} {good : WaylandKeyWindow → Prop},
      (∀ next, next.Idle (generation + 2 * count) →
        ∃ last, waylandKeyMachine.run next rest = some last ∧ good last) →
      ∃ last, waylandKeyMachine.run window
        ((List.replicate count [pressA, releaseA]).flatten ++ rest) = some last ∧ good last := by
  induction count with
  | zero => exact fun idle _ _ _ goes => goes _ idle
  | succ count ih =>
    intro window generation idle room rest good goes
    have once := (idle.press (by omega)).release (by omega)
    have further : ∀ next : WaylandKeyWindow, next.Idle (generation + 1 + 1 + 2 * count) →
        ∃ last, waylandKeyMachine.run next rest = some last ∧ good last := by
      intro next own
      apply goes
      rw [show generation + 2 * (count + 1) = generation + 1 + 1 + 2 * count by omega]
      exact own
    exact ih once (by omega) further

/-- A keymap that comes when the generations are used up. -/
theorem Repeating.keymap (repeating : window.Repeating 18446744073709551615) :
    (window.perform (.keymap true promptAnswer)).repeats.candidate = some 30 ∧
      (window.perform (.keymap true promptAnswer)).keyboard.pressed 30 = none := by
  have exhausted : window.repeats.generation = WaylandRepeatState.maximumGeneration :=
    UInt64.toNat_inj.mp repeating.generation
  have failed : ∃ failure, window.repeats.cancel = .error failure := by
    unfold WaylandRepeatState.cancel
    rw [if_neg (by rw [repeating.candidate]; nofun)]
    unfold WaylandRepeatState.advanceGeneration
    rw [if_pos exhausted]
    exact ⟨_, rfl⟩
  obtain ⟨failure, failed⟩ := failed
  have canceled : (window.cancelRepeatNoexcept promptAnswer).repeats = window.repeats := by
    unfold cancelRepeatNoexcept cancelRepeat changeRepeat
    rw [failed]
    dsimp only
    split <;> rfl
  constructor
  · exact (congrArg WaylandRepeatState.candidate canceled).trans repeating.candidate
  · rfl

/-! ### Runs -/

/-- In every run of the window: the events of a period are strokes of each key; the key
that repeats is pressed unless the window has failed for want of generations; two states
with one generation repeat the same key with the same timing; expirations reported for
another generation change nothing, and the timer is the current generation's. -/
theorem wayland_keys_orderly (reached : Reachable waylandKeyMachine window) :
    (∀ period ∈ window.earlier ++ [window.current], ∀ key, KeyStream (eventsOf key period)) ∧
    (∀ key, window.repeats.candidate = some key →
      (∃ text, window.keyboard.pressed key = some text) ∨ window.Exhausted) ∧
    (∀ last, Reachable (waylandKeyMachine.startedIn window) last →
      last.repeats.generation = window.repeats.generation → last.repeats = window.repeats) ∧
    (∀ generation read modifiers posted, generation ≠ window.repeats.generation →
      window.perform (.repeatReady generation read modifiers posted) = window) ∧
    (window.running = true → window.timer.2 = window.repeats.generation) := by
  have sound := Sound.of_reachable reached
  refine ⟨?_, ?_, ?_, ?_, sound.timer⟩
  · intro period member
    obtain before | own := List.mem_append.mp member
    · exact sound.earlier period before
    · rw [List.mem_singleton.mp own]
      exact sound.current
  · intro key same
    exact (sound.candidate key same).imp_left Option.ne_none_iff_exists'.mp
  · intro last further same
    obtain ⟨-, unchanged | more⟩ := advanced_along sound further
    · exact unchanged
    · rw [same] at more
      exact absurd more (Nat.lt_irrefl _)
  · intro generation read modifiers posted other
    exact if_pos other

theorem wayland_keys_orderly_stroke :
    ∃ window, waylandKeyMachine.run {} (strokesThenKeymap 1) = some window ∧
      window.earlier.map (eventsOf 30) =
        [[], [], [(.down, [0x61]), (.up, [0x61]), (.down, [0x61])]] ∧
      ∀ period ∈ window.earlier ++ [window.current], ∀ key, KeyStream (eventsOf key period) := by
  refine ⟨_, rfl, rfl, ?_⟩
  have ran : waylandKeyMachine.run {} (strokesThenKeymap 1) = some _ := rfl
  exact (wayland_keys_orderly (Reachable.run (Reaches.start rfl) ran)).1

/-- The key that repeats is not always pressed: where the generations are used up it is
not given up with its keymap. -/
theorem exhausted_candidate_released :
    ∃ window, waylandKeyMachine.run {} (strokesThenKeymap 9223372036854775806) = some window ∧
      window.repeats.candidate = some 30 ∧ window.keyboard.pressed 30 = none := by
  have opened : ∃ first : WaylandKeyWindow, first.Idle 2 ∧ ∀ rest,
      waylandKeyMachine.run {} (.capabilities true true true promptAnswer promptAnswer ::
        .keymap true promptAnswer :: .enter true :: .repeatInfo 25 600 promptAnswer :: rest) =
      waylandKeyMachine.run first rest := by
    refine ⟨_, ⟨?_, ?_, ?_, ?_, ?_⟩, fun rest => rfl⟩
    all_goals rfl
  obtain ⟨first, idle, runs⟩ := opened
  unfold strokesThenKeymap
  rw [List.append_assoc]
  change ∃ window, waylandKeyMachine.run {} (_ :: _ :: _ :: _ :: _) = some window ∧ _
  rw [runs]
  apply idle.strokes
  · decide
  · intro next own
    have repeating := own.press (by decide)
    exact ⟨_, rfl, repeating.keymap⟩

end WaylandKeyWindow

end Dui
