import Mathlib.Tactic.NormNum
import Dui.Foundation
import Dui.Transition

/-!
# Surface frames

A `SurfaceFrame` is a transaction on the delegate it owns: it maps the pixels once,
while it is constructed, and ends with one of `present` and `abandon`. The delegate
may throw from `pixels` and from `present`, and may map any number of bytes. What
it sees of the frame is logged, together with the pixels the frame hands out.
-/

namespace Dui.Surface

open Transition

/-- `std::size_t`, at least as wide as the 32-bit extents. -/
structure SizeType where
  bits : Nat
  wide : 32 ≤ bits

namespace SizeType

/-- `std::numeric_limits<std::size_t>::max()`. -/
def max (size : SizeType) : Nat := 2 ^ size.bits - 1

/-- Products wrap. -/
def multiply (size : SizeType) (left right : Nat) : Nat := left * right % 2 ^ size.bits

/-- Quotients by zero are undefined. -/
def divide (left right : Nat) : Option Nat := if right = 0 then none else some (left / right)

end SizeType

/-- `multiplication_overflows`. -/
def multiplicationOverflows (size : SizeType) (left right : Nat) : Option Bool :=
  if right = 0 then some false
  else (SizeType.divide size.max right).map fun most => decide (left > most)

inductive PixelFormat where
  | rgba8888SrgbPremultiplied
  | unknown (value : Int)
  deriving DecidableEq, Repr

/-- `SurfaceDescriptor`. -/
structure Descriptor (size : SizeType) where
  width : UInt32
  height : UInt32
  rowBytes : Nat
  representable : rowBytes ≤ size.max
  format : PixelFormat := .rgba8888SrgbPremultiplied
  generation : UInt64

inductive PresentStatus where
  | presented
  | outOfDate
  | lost
  deriving DecidableEq, Repr

/-- The calls the delegate receives, and the pixels handed to the frame's user. -/
inductive Event where
  | mapped
  | exposed (bytes : Nat)
  | present
  | abandon
  deriving DecidableEq, Repr

/-- The calls that end the transaction. -/
def Event.ends : Event → Bool
  | .present | .abandon => true
  | .mapped | .exposed _ => false

/-- `SurfaceFrame`: `pixels` is the length of its span. -/
structure Frame (size : SizeType) where
  descriptor : Descriptor size
  pixels : Nat := 0
  active : Bool := true
  events : List Event := []

/-- What a constructor leaves behind where it throws: the frame's last state. -/
abbrev Construction (size : SizeType) := Except (Failure × Frame size) (Frame size)

namespace Frame

variable {size : SizeType}

def log (frame : Frame size) (event : Event) : Frame size :=
  { frame with events := frame.events ++ [event] }

/-- The constructor's `reject`. -/
def reject (frame : Frame size) (message : String) : Construction size :=
  .error (.invalidArgument message, { frame.log .abandon with active := false })

/-- The body of the constructor's `try`. -/
def mapPixels (frame : Frame size) (required : Nat) (mapped : Except Failure Nat) :
    Construction size :=
  let frame := frame.log .mapped
  match mapped with
  | .error failure => .error (failure, frame)
  | .ok length =>
    if length < required then
      frame.reject "Surface pixel storage is smaller than its descriptor"
    else .ok { frame with pixels := required }

/-- The constructor's `catch`. -/
def abandonAndRethrow : Construction size → Construction size
  | .ok frame => .ok frame
  | .error (failure, frame) =>
    if frame.active then .error (failure, { frame.log .abandon with active := false })
    else .error (failure, frame)

/-- The constructor, given its delegate; `none` where it computes something
undefined. -/
def construct (descriptor : Descriptor size) (mapped : Except Failure Nat) :
    Option (Construction size) := do
  let frame : Frame size := { descriptor }
  let width := descriptor.width.toNat
  let height := descriptor.height.toNat
  if width = 0 ∨ height = 0 ∨ descriptor.generation = 0 then
    return frame.reject "Ready surface frame requires dimensions, generation, and delegate"
  if descriptor.format ≠ .rgba8888SrgbPremultiplied ∨ width > 2147483647 ∨
      height > 2147483647 then
    return frame.reject "Surface format or dimensions are unsupported"
  let bytesPerPixel := 4
  let overflows ← multiplicationOverflows size width bytesPerPixel
  if overflows then
    return frame.reject "Surface width overflows row size"
  let minimumRow := size.multiply width bytesPerPixel
  if descriptor.rowBytes < minimumRow then
    return frame.reject "Surface stride or extent is invalid"
  let most ← SizeType.divide size.max descriptor.rowBytes
  if height > most then
    return frame.reject "Surface stride or extent is invalid"
  let required := size.multiply descriptor.rowBytes height
  return abandonAndRethrow (frame.mapPixels required mapped)

/-- `pixels`. -/
def expose (frame : Frame size) : Except Failure Nat × Frame size :=
  if ¬ frame.active then
    (.error (.logicError "Surface frame transaction is already complete"), frame)
  else (.ok frame.pixels, frame.log (.exposed frame.pixels))

/-- `present`, whose delegate may throw. -/
def present (frame : Frame size) (outcome : Except Failure PresentStatus) :
    Except Failure PresentStatus × Frame size :=
  if ¬ frame.active then
    (.error (.logicError "Surface frame transaction is already complete"), frame)
  else (outcome, { frame.log .present with active := false, pixels := 0 })

def abandon (frame : Frame size) : Frame size :=
  if ¬ frame.active then frame
  else { frame.log .abandon with active := false, pixels := 0 }

end Frame

/-- A frame before its construction, in its life, and after it. A constructor that
throws leaves no frame to destroy. -/
inductive Life (size : SizeType) where
  | unconstructed
  | alive (frame : Frame size)
  | finished (descriptor : Descriptor size) (events : List Event)
  | refused (failure : Failure)

inductive Action (size : SizeType) where
  | construct (descriptor : Descriptor size) (mapped : Except Failure Nat)
  /-- The constructor without a delegate. -/
  | constructNull (descriptor : Descriptor size)
  | expose
  | present (outcome : Except Failure PresentStatus)
  | abandon
  /-- The destructor, which abandons. -/
  | destroy

variable {size : SizeType}

def Life.step : Life size → Action size → Option (Life size)
  | .unconstructed, .construct descriptor mapped =>
    (Frame.construct descriptor mapped).map fun
      | .ok frame => .alive frame
      | .error (_, frame) => .finished frame.descriptor frame.events
  | .unconstructed, .constructNull _ =>
    some (.refused (.invalidArgument
      "Ready surface frame requires dimensions, generation, and delegate"))
  | .alive frame, .expose => some (.alive frame.expose.2)
  | .alive frame, .present outcome => some (.alive (frame.present outcome).2)
  | .alive frame, .abandon => some (.alive frame.abandon)
  | .alive frame, .destroy => some (.finished frame.descriptor frame.abandon.events)
  | _, _ => none

/-- The life of one frame object. -/
def frameMachine (size : SizeType) : Machine (Life size) (Action size) where
  init life := life = .unconstructed
  step := Life.step

/-- The pixels of the descriptor: rows that hold their width, and an extent that a
`std::size_t` can count. -/
structure Descriptor.Fits (descriptor : Descriptor size) : Prop where
  row : 4 * descriptor.width.toNat ≤ descriptor.rowBytes
  extent : descriptor.rowBytes * descriptor.height.toNat ≤ size.max

/-- `row_bytes * height`. -/
def Descriptor.bytes (descriptor : Descriptor size) : Nat :=
  descriptor.rowBytes * descriptor.height.toNat

namespace SizeType

theorem multiply_exact {left right : Nat} (fits : left * right ≤ size.max) :
    size.multiply left right = left * right := by
  have positive : 0 < 2 ^ size.bits := Nat.two_pow_pos size.bits
  apply Nat.mod_eq_of_lt
  unfold max at fits
  omega

end SizeType

theorem multiplication_overflows_spec (left : Nat) {right : Nat} (nonzero : right ≠ 0) :
    multiplicationOverflows size left right = some (decide (size.max < left * right)) := by
  unfold multiplicationOverflows SizeType.divide
  rw [if_neg nonzero, if_neg nonzero, Option.map_some]
  have same : size.max / right < left ↔ size.max < left * right :=
    Nat.div_lt_iff_lt_mul (Nat.pos_of_ne_zero nonzero)
  exact congrArg some (decide_eq_decide.mpr same)

namespace Frame

/-- The frame was refused: its delegate was abandoned, at most after it had mapped
its pixels. -/
structure Refused (descriptor : Descriptor size) (frame : Frame size) : Prop where
  descriptor : frame.descriptor = descriptor
  active : frame.active = false
  events : frame.events = [.abandon] ∨ frame.events = [.mapped, .abandon]

/-- The frame was made: it holds exactly the pixels of its descriptor. -/
structure Made (descriptor : Descriptor size) (mapped : Except Failure Nat) (frame : Frame size) :
    Prop where
  fits : descriptor.Fits
  mapped : ∃ length, mapped = .ok length ∧ descriptor.bytes ≤ length
  frame : frame = { descriptor, pixels := descriptor.bytes, events := [.mapped] }

theorem map_pixels_cases (descriptor : Descriptor size) (mapped : Except Failure Nat) :
    (∃ failure frame, abandonAndRethrow
        (mapPixels { descriptor } descriptor.bytes mapped) = .error (failure, frame) ∧
      Refused descriptor frame) ∨
    ∃ length, mapped = .ok length ∧ descriptor.bytes ≤ length ∧
      abandonAndRethrow (mapPixels { descriptor } descriptor.bytes mapped) =
        .ok { descriptor, pixels := descriptor.bytes, events := [.mapped] } := by
  cases mapped with
  | error failure => exact .inl ⟨failure, _, rfl, rfl, rfl, .inr rfl⟩
  | ok length =>
    unfold mapPixels
    dsimp only
    by_cases short : length < descriptor.bytes
    · -- the rejection passes through the handler that would abandon once more
      rw [if_pos short]
      exact .inl ⟨_, _, rfl, rfl, rfl, .inr rfl⟩
    · rw [if_neg short]
      exact .inr ⟨length, rfl, not_lt.mp short, rfl⟩

/-- The constructor computes nothing undefined, and either refuses or makes the frame. -/
theorem construct_cases (descriptor : Descriptor size) (mapped : Except Failure Nat) :
    (∃ failure frame, construct descriptor mapped = some (.error (failure, frame)) ∧
      Refused descriptor frame) ∨
    ∃ frame, construct descriptor mapped = some (.ok frame) ∧ Made descriptor mapped frame := by
  have rejected (message : String) :
      ∃ failure frame, (some (reject { descriptor } message) : Option (Construction size)) =
        some (.error (failure, frame)) ∧ Refused descriptor frame :=
    ⟨_, _, rfl, rfl, rfl, .inl rfl⟩
  unfold construct
  dsimp only
  by_cases empty : descriptor.width.toNat = 0 ∨ descriptor.height.toNat = 0 ∨
      descriptor.generation = 0
  · rw [if_pos empty]
    exact .inl (rejected _)
  rw [if_neg empty]
  by_cases unsupported : descriptor.format ≠ .rgba8888SrgbPremultiplied ∨
      descriptor.width.toNat > 2147483647 ∨ descriptor.height.toNat > 2147483647
  · rw [if_pos unsupported]
    exact .inl (rejected _)
  rw [if_neg unsupported, multiplication_overflows_spec _ (by decide), Option.bind_eq_bind,
    Option.bind_some]
  by_cases overflows : size.max < descriptor.width.toNat * 4
  · rw [if_pos (decide_eq_true overflows)]
    exact .inl (rejected _)
  rw [if_neg (by rwa [decide_eq_true_iff]), SizeType.multiply_exact (not_lt.mp overflows)]
  by_cases narrow : descriptor.rowBytes < descriptor.width.toNat * 4
  · rw [if_pos narrow]
    exact .inl (rejected _)
  have positive : 0 < descriptor.rowBytes := by
    have width : descriptor.width.toNat ≠ 0 := fun zero => empty (.inl zero)
    omega
  have divided : SizeType.divide size.max descriptor.rowBytes =
      some (size.max / descriptor.rowBytes) := if_neg positive.ne'
  rw [if_neg narrow, divided, Option.bind_eq_bind, Option.bind_some]
  by_cases high : descriptor.height.toNat > size.max / descriptor.rowBytes
  · rw [if_pos high]
    exact .inl (rejected _)
  have extent : descriptor.rowBytes * descriptor.height.toNat ≤ size.max := by
    have within := (Nat.le_div_iff_mul_le positive).mp (not_lt.mp high)
    rwa [mul_comm]
  have fits : descriptor.Fits := ⟨by omega, extent⟩
  rw [if_neg high, SizeType.multiply_exact extent]
  obtain ⟨failure, frame, thrown, refused⟩ | ⟨length, returned, enough, made⟩ :=
    map_pixels_cases descriptor mapped
  · exact .inl ⟨failure, frame, congrArg some thrown, refused⟩
  · exact .inr ⟨_, congrArg some made, fits, ⟨length, returned, enough⟩, rfl⟩

/-- What a living frame has shown of its transaction: the pixels, mapped once and
handed out whole, until the delegate's one last call. -/
structure Sound (frame : Frame size) : Prop where
  fits : frame.descriptor.Fits
  running : frame.active = true → frame.pixels = frame.descriptor.bytes ∧
    ∃ count, frame.events = .mapped :: List.replicate count (.exposed frame.descriptor.bytes)
  closed : frame.active = false → frame.pixels = 0 ∧
    ∃ count last, Event.ends last = true ∧ frame.events =
      .mapped :: List.replicate count (.exposed frame.descriptor.bytes) ++ [last]

variable {frame : Frame size}

theorem Made.sound {descriptor : Descriptor size} {mapped : Except Failure Nat}
    (made : Made descriptor mapped frame) : frame.Sound := by
  obtain ⟨fits, _, rfl⟩ := made
  exact ⟨fits, fun _ => ⟨rfl, 0, rfl⟩, nofun⟩

theorem Sound.expose (sound : frame.Sound) : frame.expose.2.Sound := by
  unfold Frame.expose
  by_cases active : frame.active = true
  · rw [if_neg (not_not_intro active)]
    obtain ⟨pixels, count, events⟩ := sound.running active
    refine ⟨sound.fits, fun _ => ⟨pixels, count + 1, ?_⟩, fun closed => ?_⟩
    · simp only [log, events, pixels, List.replicate_succ', List.cons_append]
    · exact absurd (active.symm.trans closed) (by decide)
  · rw [if_pos active]
    exact sound

/-- The call that ends a running transaction. -/
theorem Sound.end_with (sound : frame.Sound) (active : frame.active = true) {last : Event}
    (ends : last.ends = true) : Sound { frame.log last with active := false, pixels := 0 } := by
  obtain ⟨_, count, events⟩ := sound.running active
  refine ⟨sound.fits, nofun, fun _ => ⟨rfl, count, last, ends, ?_⟩⟩
  simp only [log, events]

theorem Sound.present (sound : frame.Sound) (outcome : Except Failure PresentStatus) :
    (frame.present outcome).2.Sound := by
  unfold Frame.present
  by_cases active : frame.active = true
  · rw [if_neg (not_not_intro active)]
    exact sound.end_with active rfl
  · rw [if_pos active]
    exact sound

theorem Sound.abandon (sound : frame.Sound) : frame.abandon.Sound := by
  unfold Frame.abandon
  by_cases active : frame.active = true
  · rw [if_neg (not_not_intro active)]
    exact sound.end_with active rfl
  · rw [if_pos active]
    exact sound

theorem abandon_inactive (frame : Frame size) : frame.abandon.active = false := by
  unfold Frame.abandon
  split
  case isTrue closed => simpa using closed
  case isFalse => rfl

theorem abandon_descriptor (frame : Frame size) :
    frame.abandon.descriptor = frame.descriptor := by
  unfold Frame.abandon
  split <;> rfl

end Frame

/-- One call ends the transaction, and nothing comes after it. -/
structure EndsOnce (events : List Event) : Prop where
  once : events.countP Event.ends = 1
  last : ∀ before event after, events = before ++ event :: after →
    Event.ends event = true → after = []

/-- Pixels are handed out as a whole, and only of an extent that fits. -/
def Whole (descriptor : Descriptor size) (events : List Event) : Prop :=
  ∀ bytes, .exposed bytes ∈ events → descriptor.Fits ∧ bytes = descriptor.bytes

theorem EndsOnce.of_last {front : List Event} {last : Event}
    (running : ∀ event ∈ front, Event.ends event = false) (ends : last.ends = true) :
    EndsOnce (front ++ [last]) := by
  constructor
  · have none : front.countP Event.ends = 0 := by
      rw [List.countP_eq_zero]
      intro event member
      simp [running event member]
    rw [List.countP_append, none, List.countP_singleton, if_pos ends]
  · intro before event after split ended
    obtain none | ⟨rest, final, rfl⟩ := after.eq_nil_or_concat
    · exact none
    · -- an event before the last one is in the front
      have same : front = before ++ event :: rest := by
        have split : front ++ [last] = (before ++ event :: rest) ++ [final] := by
          rw [split, List.concat_eq_append, List.append_assoc, List.cons_append]
        exact (List.append_inj' split rfl).1
      have member : event ∈ front := by
        rw [same]
        exact List.mem_append_right _ List.mem_cons_self
      exact absurd ((running event member).symm.trans ended) (by decide)

theorem exposures_open (bytes count : Nat) :
    ∀ event ∈ Event.mapped :: List.replicate count (.exposed bytes), Event.ends event = false := by
  intro event member
  obtain rfl | exposed := List.mem_cons.mp member
  · rfl
  · rw [List.eq_of_mem_replicate exposed]
    rfl

theorem Frame.Sound.ends_once {frame : Frame size} (sound : frame.Sound)
    (closed : frame.active = false) : EndsOnce frame.events := by
  obtain ⟨_, count, last, ends, events⟩ := sound.closed closed
  rw [events]
  exact .of_last (exposures_open _ _) ends

theorem Frame.Sound.whole {frame : Frame size} (sound : frame.Sound) :
    Whole frame.descriptor frame.events := by
  intro bytes member
  refine ⟨sound.fits, ?_⟩
  have exposed {count : Nat} (member : Event.exposed bytes ∈
      Event.mapped :: List.replicate count (.exposed frame.descriptor.bytes)) :
      bytes = frame.descriptor.bytes := by
    obtain different | exposed := List.mem_cons.mp member
    · cases different
    · exact Event.exposed.inj (List.eq_of_mem_replicate exposed)
  cases active : frame.active with
  | true =>
    obtain ⟨_, count, events⟩ := sound.running active
    rw [events] at member
    exact exposed member
  | false =>
    obtain ⟨_, count, last, ends, events⟩ := sound.closed active
    rw [events] at member
    obtain front | only := List.mem_append.mp member
    · exact exposed front
    · rw [← List.mem_singleton.mp only] at ends
      cases ends

/-- The invariant of a frame's life. -/
def Life.Sound : Life size → Prop
  | .unconstructed | .refused _ => True
  | .alive frame => frame.Sound
  | .finished descriptor events => EndsOnce events ∧ Whole descriptor events

theorem Frame.Refused.finished {descriptor : Descriptor size} {frame : Frame size}
    (refused : Frame.Refused descriptor frame) :
    Life.Sound (.finished frame.descriptor frame.events) := by
  obtain events | events := refused.events
  · rw [events]
    have ends : EndsOnce ([] ++ [.abandon]) := .of_last nofun rfl
    exact ⟨ends, by simp [Whole]⟩
  · rw [events]
    have ends : EndsOnce ([.mapped] ++ [.abandon]) := .of_last (by simp [Event.ends]) rfl
    exact ⟨ends, by simp [Whole]⟩

theorem Life.Sound.step {life next : Life size} {action : Action size} (sound : life.Sound)
    (stepped : life.step action = some next) : next.Sound := by
  unfold Life.step at stepped
  split at stepped
  case h_1 descriptor mapped =>
    obtain ⟨failure, frame, made, refused⟩ | ⟨frame, made, whole⟩ :=
      Frame.construct_cases descriptor mapped
    · rw [made] at stepped
      cases stepped
      exact refused.finished
    · rw [made] at stepped
      cases stepped
      exact whole.sound
  case h_2 =>
    cases stepped
    exact trivial
  case h_3 frame =>
    cases stepped
    exact Frame.Sound.expose sound
  case h_4 frame outcome =>
    cases stepped
    exact Frame.Sound.present sound outcome
  case h_5 frame =>
    cases stepped
    exact Frame.Sound.abandon sound
  case h_6 frame =>
    cases stepped
    have ended : frame.abandon.Sound := Frame.Sound.abandon sound
    exact ⟨ended.ends_once frame.abandon_inactive, frame.abandon_descriptor ▸ ended.whole⟩
  case h_7 => cases stepped

/-- The delegate of a frame whose life is over was presented or abandoned exactly
once, and no pixels were handed out afterwards. A frame in its life holds exactly
the pixels of its descriptor until that call, and none after it. Construction
computes nothing undefined, and makes a frame only of an extent that fits. -/
theorem surface_frame_ends_once {life : Life size} (reached : Reachable (frameMachine size) life) :
    (∀ descriptor events, life = .finished descriptor events →
      EndsOnce events ∧ Whole descriptor events) ∧
    (∀ frame, life = .alive frame →
      frame.descriptor.Fits ∧ Whole frame.descriptor frame.events ∧
        (frame.active = true →
          frame.events.countP Event.ends = 0 ∧ frame.pixels = frame.descriptor.bytes) ∧
        (frame.active = false → EndsOnce frame.events ∧ frame.pixels = 0 ∧
          ∃ failure, frame.expose = (.error failure, frame))) ∧
    ∀ (descriptor : Descriptor size) mapped, ∃ result,
      Frame.construct descriptor mapped = some result ∧
        ∀ frame, result = .ok frame →
          descriptor.Fits ∧ frame.descriptor = descriptor ∧ frame.pixels = descriptor.bytes := by
  have sound : life.Sound := by
    apply Reaches.invariant Life.Sound _ _ reached
    · intro life initial
      rw [initial]
      exact trivial
    · exact fun _ _ _ sound _ stepped => sound.step stepped
  refine ⟨?_, ?_, ?_⟩
  · rintro descriptor events rfl
    exact sound
  · rintro frame rfl
    have sound : frame.Sound := sound
    refine ⟨sound.fits, sound.whole, ?_, ?_⟩
    · intro active
      obtain ⟨pixels, count, events⟩ := sound.running active
      refine ⟨?_, pixels⟩
      rw [events, List.countP_eq_zero]
      intro event member
      simp [exposures_open _ _ event member]
    · intro closed
      refine ⟨sound.ends_once closed, (sound.closed closed).1, ?_⟩
      exact ⟨_, if_pos (by simp [closed])⟩
  · intro descriptor mapped
    obtain ⟨failure, frame, made, _⟩ | ⟨frame, made, fits, _, rfl⟩ :=
      Frame.construct_cases descriptor mapped
    · exact ⟨_, made, nofun⟩
    · refine ⟨_, made, ?_⟩
      intro frame same
      cases same
      exact ⟨fits, rfl, rfl⟩

/-- A `std::size_t` of 64 bits. -/
def SizeType.wide64 : SizeType := ⟨64, by decide⟩

/-- Two rows of two pixels. -/
def smallDescriptor : Descriptor SizeType.wide64 where
  width := 2
  height := 2
  rowBytes := 8
  representable := by decide
  generation := 1

/-- A frame that is presented, used once more, and destroyed. -/
theorem surface_frame_presented :
    EndsOnce [.mapped, .exposed 16, .present] ∧
      Whole smallDescriptor [.mapped, .exposed 16, .present] := by
  have ran : (frameMachine SizeType.wide64).run .unconstructed
      [.construct smallDescriptor (.ok 20), .expose, .present (.ok .presented), .expose,
        .present (.ok .presented), .destroy] =
      some (.finished smallDescriptor [.mapped, .exposed 16, .present]) := by
    rfl
  have reached := Reachable.run (.start rfl) ran
  exact (surface_frame_ends_once reached).1 _ _ rfl

end Dui.Surface
