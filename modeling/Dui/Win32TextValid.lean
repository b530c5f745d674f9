import Dui.Win32TextInput

/-!
# Valid text in a Win32 session

Whatever the order of characters, messages of the input method and updates, every value
the client could be told of is valid; a backspace removes one scalar value; and a
composition that comes to nothing leaves the value from before it.
-/

namespace Dui

open Transition

/-- Win32 gives the UTF-8 of well-formed UTF-16. -/
def Converts (convert : List UInt16 → Option (List UInt8)) : Prop :=
  ∀ chars : List Char, chars ≠ [] → convert (encodeUtf16 chars) = some (encodeUtf8 chars)

/-- The strings of the input method are well-formed UTF-16. -/
def CompositionReading.WellFormed (reading : CompositionReading) : Prop :=
  (∀ wide, reading.result = some (.ok wide) → ∃ chars, wide = encodeUtf16 chars) ∧
    ∀ wide, reading.composition = some (.ok wide) → ∃ chars, wide = encodeUtf16 chars

def Win32Action.WellFormed : Win32Action → Prop
  | .message (.composition (some reading)) => reading.WellFormed
  | _ => True

/-! ### Replacing -/

section Replacing
variable {traced : TracedValue} {range : TextRange}

theorem replaced_text (traced : TracedValue) (replacement : List UInt8) (origin : TextOrigin)
    (cursor : Nat) (composing : Bool) (ordered : range.start ≤ range.stop) :
    (traced.replaceRange range replacement origin cursor composing).value.text =
      traced.value.text.take range.start ++ replacement ++
        traced.value.text.drop range.stop := by
  unfold TracedValue.replaceRange TracedValue.value
  simp only [List.map_append, List.map_take, List.map_drop, List.map_map]
  rw [Nat.add_sub_cancel' ordered]
  congr 2
  exact List.map_id _

theorem removed_value (traced : TracedValue) (ordered : range.start ≤ range.stop) :
    (traced.replaceRange range [] .own 0 false).value =
      ⟨traced.value.text.take range.start ++ traced.value.text.drop range.stop,
        ⟨range.start, range.start⟩, none⟩ := by
  have text := replaced_text traced [] .own 0 false ordered
  rw [List.append_nil] at text
  rw [← text]
  rfl

/-- A collapsed range and one from an earlier place, between scalar values. -/
theorem range_between (front middle back : List Char) :
    TextRange.validFor ⟨(encodeUtf8 front).length, (encodeUtf8 (front ++ middle)).length⟩
      (encodeUtf8 (front ++ middle ++ back)) = true := by
  apply (valid_for_iff _).mpr
  refine ⟨⟨_, rfl⟩, ?_, ⟨front, middle ++ back, ?_, rfl⟩, ⟨front ++ middle, back, rfl, rfl⟩⟩
  · rw [encode_append, List.length_append]
    exact Nat.le_add_right _ _
  · rw [List.append_assoc]

/-- Well-formed text in place of a valid range, with the cursor between two scalar values
of it, makes a valid value. -/
theorem replaced_valid (valid : range.validFor traced.value.text = true) (chars more : List Char)
    (origin : TextOrigin) (composing : Bool) :
    (traced.replaceRange range (encodeUtf8 (chars ++ more)) origin (encodeUtf8 chars).length
      composing).value.valid = true := by
  obtain ⟨-, ordered, starts, -⟩ := (valid_for_iff range).mp valid
  obtain ⟨⟨front, before⟩, -, back, after⟩ := valid_range_cuts valid
  obtain ⟨first, second, same, start⟩ := starts
  have length : range.start = (encodeUtf8 front).length := by
    rw [← before, List.length_take, same, encode_append, List.length_append, start]
    omega
  have text := replaced_text traced (encodeUtf8 (chars ++ more)) origin (encodeUtf8 chars).length
    composing ordered
  rw [before, after, ← encode_append, ← encode_append] at text
  have cursor : range.start + (encodeUtf8 chars).length = (encodeUtf8 (front ++ chars)).length := by
    rw [length, encode_append, List.length_append]
  have stop : range.start + (encodeUtf8 (chars ++ more)).length =
      (encodeUtf8 (front ++ (chars ++ more))).length := by
    rw [length, encode_append front, List.length_append]
  have selection : TextRange.validFor ⟨range.start + (encodeUtf8 chars).length,
      range.start + (encodeUtf8 chars).length⟩
      (encodeUtf8 (front ++ (chars ++ more) ++ back)) = true := by
    rw [cursor]
    have own := range_between (front ++ chars) [] (more ++ back)
    simp only [List.append_nil, List.append_assoc] at own ⊢
    exact own
  have whole : TextRange.validFor ⟨range.start, range.start + (encodeUtf8 (chars ++ more)).length⟩
      (encodeUtf8 (front ++ (chars ++ more) ++ back)) = true := by
    rw [stop, length]
    exact range_between front (chars ++ more) back
  unfold TextEditingValue.valid
  rw [text, Bool.and_eq_true]
  apply And.intro selection
  cases composing with
  | false => rfl
  | true => exact whole

/-- The loop stops at the first byte of the scalar value before a position. -/
theorem previous_start_spec (front : List Char) (char : Char) (back : List Char) :
    previousStart (encodeUtf8 (front ++ char :: back))
      ((encodeUtf8 (front ++ [char])).length - 1) = (encodeUtf8 front).length := by
  obtain ⟨first, bytes, encoded, starts, continues⟩ := encoding_bytes char
  have length : (encodeUtf8 (front ++ [char])).length - 1 =
      (encodeUtf8 front).length + bytes.length := by
    have one : encodeUtf8 [char] = first :: bytes := by
      rw [encode_cons, encoded]
      exact List.append_nil _
    rw [encode_append, one, List.length_append, List.length_cons]
    omega
  have text : encodeUtf8 (front ++ char :: back) =
      encodeUtf8 front ++ (first :: (bytes ++ encodeUtf8 back)) := by
    rw [encode_append, encode_cons, encoded, List.cons_append]
  have stops : ∀ count, count ≤ bytes.length →
      previousStart (encodeUtf8 front ++ (first :: (bytes ++ encodeUtf8 back)))
        ((encodeUtf8 front).length + count) = (encodeUtf8 front).length := by
    intro count
    induction count with
    | zero =>
      intro _
      cases size : (encodeUtf8 front).length with
      | zero => rfl
      | succ position =>
        rw [Nat.add_zero, previousStart, ← size, List.getElem?_append_right (Nat.le_refl _),
          Nat.sub_self, List.getElem?_cons_zero, if_neg]
        have other : ¬ first &&& 0xc0 = 0x80 :=
          fun same => starts ((continuation_byte first).mp same)
        simpa [continuesEncoding] using other
    | succ count ih =>
      intro within
      have byte : (encodeUtf8 front ++ (first :: (bytes ++ encodeUtf8 back)))[
          (encodeUtf8 front).length + count + 1]? = some bytes[count] := by
        rw [List.getElem?_append_right (by omega), Nat.add_assoc, Nat.add_sub_cancel_left,
          List.getElem?_cons_succ, List.getElem?_append_left (by omega),
          List.getElem?_eq_getElem (by omega)]
      have goes : continuesEncoding bytes[count] = true := by
        unfold continuesEncoding
        rw [decide_eq_true_eq, continuation_byte]
        exact continues _ (List.getElem_mem (by omega))
      rw [← Nat.add_assoc, previousStart, byte, Option.any_some, if_pos goes]
      exact ih (by omega)
  rw [length, text]
  exact stops bytes.length (Nat.le_refl _)

/-- Before a position in valid text is a scalar value, which a backspace there removes. -/
theorem backspace_cuts {session : Win32Session} (valid : session.value.value.valid = true)
    (collapsed : session.value.selection.start = session.value.selection.stop)
    (inside : session.value.selection.start ≠ 0) : ∃ front char back,
      session.value.value.text = encodeUtf8 (front ++ char :: back) ∧
      session.value.selection.start = (encodeUtf8 (front ++ [char])).length ∧
      session.backspaceRange = ⟨(encodeUtf8 front).length, session.value.selection.stop⟩ := by
  have selection : session.value.selection.validFor session.value.value.text = true :=
    (Bool.and_eq_true_iff.mp valid).1
  obtain ⟨-, -, ⟨before, back, text, start⟩, -⟩ := (valid_for_iff _).mp selection
  obtain rfl | ⟨front, char, rfl⟩ := List.eq_nil_or_concat before
  · exact absurd start inside
  · rw [List.concat_eq_append, List.append_assoc] at text
    rw [List.concat_eq_append] at start
    refine ⟨front, char, back, text, start, ?_⟩
    unfold Win32Session.backspaceRange
    dsimp only
    rw [if_pos ⟨collapsed, inside⟩, text, start]
    exact congrArg (TextRange.mk · session.value.selection.stop)
      (previous_start_spec front char back)

theorem backspace_valid {session : Win32Session} (valid : session.value.value.valid = true) :
    session.backspaceRange.validFor session.value.value.text = true := by
  have selection : session.value.selection.validFor session.value.value.text = true :=
    (Bool.and_eq_true_iff.mp valid).1
  by_cases removes : session.value.selection.start = session.value.selection.stop ∧
      session.value.selection.start ≠ 0
  · obtain ⟨front, char, back, text, start, range⟩ := backspace_cuts valid removes.1 removes.2
    rw [range, ← removes.1, start, text]
    have own := range_between front [char] back
    rw [List.append_assoc] at own
    exact own
  · unfold Win32Session.backspaceRange
    dsimp only
    rw [if_neg removes]
    exact selection

end Replacing

/-! ### The invariant -/

structure Win32Session.Valid (session : Win32Session) : Prop where
  value : session.value.value.valid = true
  before : ∀ saved ∈ session.beforeComposition, saved.value.valid = true
  pending : ∀ unit ∈ session.pendingHighSurrogate, isHighSurrogate unit = true

theorem Win32Session.Valid.without_pending {session : Win32Session} (valid : session.Valid) :
    { session with pendingHighSurrogate := none }.Valid :=
  ⟨valid.value, valid.before, fun _ member => absurd member (Option.not_mem_none _)⟩

theorem Win32Session.Valid.without_saved {session : Win32Session} (valid : session.Valid) :
    { session with beforeComposition := none }.Valid :=
  ⟨valid.value, fun _ member => absurd member (Option.not_mem_none _), valid.pending⟩

namespace Win32Text

/-- What holds of the session whatever has happened to it. -/
structure Sound (text : Win32Text) : Prop where
  passed : ∀ value ∈ text.passed, value.valid = true
  session : ∀ session ∈ text.active, session.Valid

variable {convert : List UInt16 → Option (List UInt8)} {text : Win32Text} {session : Win32Session}

theorem of_value_value (value : TextEditingValue) : (TracedValue.ofValue value).value = value := by
  unfold TracedValue.ofValue TracedValue.value
  rw [List.map_map]
  congr 1
  exact List.map_id _

theorem Sound.with_session (sound : text.Sound) (valid : session.Valid) :
    { text with active := some session }.Sound where
  passed := sound.passed
  session other same := by
    obtain rfl := Option.some.inj same
    exact valid

theorem Sound.without (sound : text.Sound) : { text with active := none }.Sound where
  passed := sound.passed
  session _ member := absurd member (Option.not_mem_none _)

theorem Sound.update (sound : text.Sound) (value : TextEditingValue) (cancels : Bool) :
    (text.update value cancels).2.Sound := by
  unfold Win32Text.update
  split
  · exact sound
  · split_ifs with valid stuck
    · exact sound.without
    · apply sound.with_session
      constructor
      · rw [of_value_value]
        exact valid
      · exact fun _ member => absurd member (Option.not_mem_none _)
      · exact fun _ member => absurd member (Option.not_mem_none _)
    · exact sound

theorem Sound.tell (sound : text.Sound) (reply : ClientReply) : (text.tell reply).2.Sound := by
  cases reply with
  | returns => exact sound
  | throws => exact sound
  | updates value cancels => exact sound.update value cancels
  | stops => exact sound.without

theorem Sound.emit (sound : text.Sound) {value : TracedValue} (valid : value.value.valid = true)
    (reply : ClientReply) : (text.emitValue value reply).2.Sound := by
  have passed : { text with passed := text.passed ++ [value.value] }.Sound := by
    refine ⟨?_, sound.session⟩
    intro other member
    obtain before | last := List.mem_append.mp member
    · exact sound.passed other before
    · rw [List.mem_singleton.mp last]
      exact valid
  unfold emitValue
  dsimp only
  rw [if_neg (not_not_intro valid)]
  split
  · exact passed
  next session active =>
    split_ifs
    · have own := sound.session session active
      have stored : { text with
          active := some { session with value }
          passed := text.passed ++ [value.value] }.Sound :=
        passed.with_session ⟨valid, own.before, own.pending⟩
      have told := stored.tell reply
      split
      next same =>
        rw [same] at told
        exact told
      next same =>
        rw [same] at told
        exact told
    · exact passed.without

theorem wide_to_utf8_encoded (converts : Converts convert) (chars : List Char) :
    wideToUtf8 convert (encodeUtf16 chars) = .ok (encodeUtf8 chars) := by
  unfold wideToUtf8
  by_cases empty : chars = []
  · rw [empty]
    rfl
  · rw [converts chars empty, if_neg]
    cases chars with
    | nil => exact absurd rfl empty
    | cons char rest =>
      rw [encode_utf16_cons]
      obtain ⟨unit, units, -⟩ | ⟨high, low, units, -⟩ := utf16_units_cases char
      · rw [units]
        nofun
      · rw [units]
        nofun

/-- The selection that an edit replaces. -/
theorem selection_valid (valid : session.Valid) :
    session.value.selection.validFor session.value.value.text = true :=
  (Bool.and_eq_true_iff.mp valid.value).1

/-- The composition that an edit replaces, or the selection. -/
theorem composing_valid (valid : session.Valid) :
    (session.value.composing.getD session.value.selection).validFor session.value.value.text =
      true := by
  have both := Bool.and_eq_true_iff.mp valid.value
  cases composing : session.value.composing with
  | none => exact both.1
  | some range =>
    have own := both.2
    rw [show session.value.value.composing = some range from composing] at own
    exact own

theorem Sound.insert (sound : text.Sound) (converts : Converts convert) (valid : session.Valid)
    (char : Char) (reply : ClientReply) :
    (text.insertCharacters convert session (utf16Units char) reply).Sound := by
  have converted := wide_to_utf8_encoded converts [char]
  rw [encode_utf16_cons, show encodeUtf16 [] = [] from rfl, List.append_nil] at converted
  unfold insertCharacters
  rw [converted]
  apply sound.emit
  have replaced := replaced_valid (selection_valid valid) [char] []
    (.committed text.messages) false
  rw [List.append_nil] at replaced
  exact replaced

theorem Sound.process_character (sound : text.Sound) (converts : Converts convert)
    (valid : session.Valid) (character : UInt16) (reply : ClientReply) :
    (text.processCharacter convert session character reply).Sound := by
  unfold processCharacter
  dsimp only
  generalize (if character = 13 then 10 else character) = character'
  have settled : { session with pendingHighSurrogate := none }.Valid := valid.without_pending
  split_ifs with action alive backspace high low
  · exact sound.tell reply
  · exact sound.without
  · apply sound.emit
    exact replaced_valid (backspace_valid valid.value) [] [] .own false
  · apply sound.with_session
    refine ⟨valid.value, valid.before, ?_⟩
    rintro unit same
    rw [← Option.some.inj same]
    exact high
  · split
    · exact sound
    next first pending =>
      obtain ⟨char, units⟩ := pair_char (valid.pending first pending) low
      rw [← units]
      exact Sound.insert (sound.with_session settled) converts settled char reply
  · obtain ⟨char, units⟩ := single_unit_char (Bool.eq_false_iff.mpr high)
      (Bool.eq_false_iff.mpr low)
    rw [← units]
    exact Sound.insert (sound.with_session settled) converts settled char reply

/-- A result that is read of well-formed strings. -/
theorem read_result_formed (converts : Converts convert) {reading : CompositionReading}
    (formed : reading.WellFormed) {result : List UInt8}
    (read : readResult convert reading = .ok (some result)) :
    ∃ chars, result = encodeUtf8 chars := by
  unfold readResult at read
  split at read
  · cases read
  · cases read
  next wide given =>
    obtain ⟨chars, rfl⟩ := formed.1 wide given
    rw [wide_to_utf8_encoded converts] at read
    exact ⟨chars, (Option.some.inj (Except.ok.inj read)).symm⟩

/-- A composition that is read of them: the cursor never cuts a pair, so what is before it
is well formed too. -/
theorem read_composition_formed (converts : Converts convert) {reading : CompositionReading}
    (formed : reading.WellFormed) {composition : List UInt8 × Nat}
    (read : readComposition convert reading = .ok (some composition)) :
    ∃ before after, composition = (encodeUtf8 (before ++ after), (encodeUtf8 before).length) := by
  unfold readComposition at read
  split at read
  · cases read
  · cases read
  next wide given =>
    obtain ⟨chars, rfl⟩ := formed.2 wide given
    obtain ⟨before, after, rfl, cuts⟩ :=
      avoid_pair_cuts chars (Nat.min_le_right reading.cursor.toNat _)
    have front : (encodeUtf16 (before ++ after)).take (avoidPair (encodeUtf16 (before ++ after))
        (min reading.cursor.toNat (encodeUtf16 (before ++ after)).length)) =
        encodeUtf16 before := by
      rw [cuts, encode_utf16_append, List.take_left]
    dsimp only at read
    rw [front, wide_to_utf8_encoded converts, wide_to_utf8_encoded converts] at read
    exact ⟨before, after, (Option.some.inj (Except.ok.inj read)).symm⟩

theorem Sound.compose (sound : text.Sound) (before after : List Char) (reply : ClientReply) :
    (text.compose (encodeUtf8 (before ++ after), (encodeUtf8 before).length) reply).Sound := by
  unfold Win32Text.compose
  split
  · exact sound
  next session active =>
    have valid := sound.session session active
    apply Sound.emit
    · apply sound.with_session
      refine ⟨valid.value, ?_, valid.pending⟩
      intro saved same
      obtain rfl := Option.some.inj same
      cases earlier : session.beforeComposition with
      | none => exact valid.value
      | some saved => exact valid.before saved earlier
    · exact replaced_valid (composing_valid valid) before after .composed true

theorem Sound.commit_result (sound : text.Sound) (valid : session.Valid)
    {result : Option (List UInt8)} (formed : ∀ own ∈ result, ∃ chars, own = encodeUtf8 chars)
    (reply : ClientReply) : (text.commitResult session result reply).2.Sound := by
  cases result with
  | none => exact sound
  | some result =>
    obtain ⟨chars, rfl⟩ := formed result rfl
    have dropped : { session with beforeComposition := none }.Valid := valid.without_saved
    have replaced := replaced_valid (composing_valid valid) chars [] (.committed text.messages)
      false
    rw [List.append_nil] at replaced
    have emitted := Sound.emit (sound.with_session dropped) replaced reply
    unfold commitResult
    dsimp only
    split
    next same =>
      rw [same] at emitted
      exact emitted
    next same =>
      rw [same] at emitted
      exact emitted

theorem Sound.process_composition (sound : text.Sound) (converts : Converts convert)
    (valid : session.Valid) {reading : Option CompositionReading}
    (formed : ∀ own ∈ reading, own.WellFormed) :
    (text.processComposition convert session reading).Sound := by
  unfold processComposition
  split
  · exact sound
  next reading =>
    have own := formed reading rfl
    split
    next result composition readResult readComposition =>
      split_ifs
      · have committed : (text.commitResult session result reading.resultReply).2.Sound := by
          apply sound.commit_result valid
          rintro own' rfl
          exact read_result_formed converts own readResult
        split
        next composition same =>
          obtain ⟨before, after, rfl⟩ := read_composition_formed converts own readComposition
          rw [same] at committed
          exact committed.compose before after reading.compositionReply
        next same _ =>
          rw [same] at committed
          exact committed
      · exact sound
    · exact sound

theorem Sound.handle (sound : text.Sound) (converts : Converts convert) {message : Win32Message}
    (formed : (Win32Action.message message).WellFormed) :
    (text.handle convert message).Sound := by
  have counted : { text with messages := text.messages + 1 }.Sound :=
    ⟨sound.passed, sound.session⟩
  unfold Win32Text.handle
  dsimp only
  split
  · exact counted
  next session active =>
    have valid := sound.session session active
    split_ifs
    · cases message with
      | char character reply => exact counted.process_character converts valid character reply
      | imeChar => exact counted
      | startComposition =>
        apply counted.with_session
        refine ⟨?_, ?_, fun _ member => absurd member (Option.not_mem_none _)⟩
        · unfold TextEditingValue.valid
          rw [Bool.and_eq_true]
          exact ⟨selection_valid valid, selection_valid valid⟩
        · intro saved same
          obtain rfl := Option.some.inj same
          exact valid.value
      | composition reading =>
        apply counted.process_composition converts valid
        intro own given
        rw [given] at formed
        exact formed
      | endComposition reply =>
        dsimp only
        split
        · exact counted.with_session valid.without_pending
        next saved before =>
          have settled : { session with
              pendingHighSurrogate := none, beforeComposition := none }.Valid :=
            valid.without_pending.without_saved
          exact Sound.emit (counted.with_session settled) (valid.before saved before) reply
      | other => exact counted
    · exact counted.without

theorem Sound.of_reachable (converts : Converts convert)
    (reached : Reaches (win32Machine convert) (fun _ action => action.WellFormed) text) :
    text.Sound := by
  apply reached.invariant Sound
  · rintro _ ⟨configuration, value, valid, rfl⟩
    constructor
    · exact fun _ member => absurd member List.not_mem_nil
    · intro session same
      obtain rfl := Option.some.inj same
      constructor
      · rw [of_value_value]
        exact valid
      · exact fun _ member => absurd member (Option.not_mem_none _)
      · exact fun _ member => absurd member (Option.not_mem_none _)
  · intro state action next sound formed stepped
    obtain rfl := Option.some.inj stepped
    cases action with
    | message message => exact sound.handle converts formed
    | update value cancels => exact sound.update value cancels
    | expire =>
      refine ⟨sound.passed, ?_⟩
      intro session same
      obtain ⟨own, active, rfl⟩ := Option.map_eq_some_iff.mp same
      have valid := sound.session own active
      exact ⟨valid.value, valid.before, valid.pending⟩

/-! ### What is passed on -/

theorem update_passed (text : Win32Text) (value : TextEditingValue) (cancels : Bool) :
    (text.update value cancels).2.passed = text.passed := by
  unfold Win32Text.update
  split
  · rfl
  · split_ifs <;> rfl

theorem tell_passed (text : Win32Text) (reply : ClientReply) :
    (text.tell reply).2.passed = text.passed := by
  cases reply with
  | returns => rfl
  | throws => rfl
  | updates value cancels => exact update_passed text value cancels
  | stops => rfl

theorem emit_passed (text : Win32Text) (value : TracedValue) (reply : ClientReply) :
    (text.emitValue value reply).2.passed = text.passed ++ [value.value] := by
  unfold emitValue
  dsimp only
  split
  · rfl
  split
  · rfl
  next session active =>
    split
    · rfl
    have told := tell_passed { text with
      active := some { session with value }
      passed := text.passed ++ [value.value] } reply
    split
    next same =>
      rw [same] at told
      exact told
    next same =>
      rw [same] at told
      exact told

/-- What a value is stored as where the client only takes note of it. -/
theorem emit_returns (active : text.active = some session) (client : session.client = true)
    (value : TracedValue) : ∃ stored,
      (text.emitValue value .returns).2.active = some { session with value := stored } ∧
      (value.value.valid = true → stored = value) := by
  unfold emitValue
  dsimp only
  split
  next invalid => exact ⟨session.value, active, fun valid => absurd valid invalid⟩
  · rw [active]
    dsimp only
    rw [if_neg (not_not_intro client)]
    exact ⟨value, rfl, fun _ => rfl⟩

/-- A backspace with a collapsed selection. -/
theorem backspace_removes (valid : session.Valid) (active : text.active = some session)
    (client : session.client = true)
    (collapsed : session.value.selection.start = session.value.selection.stop)
    (reply : ClientReply) : ∃ value,
      (text.handle convert (.char 8 reply)).passed = text.passed ++ [value] ∧
      (session.value.selection.start = 0 → value = ⟨session.value.value.text, ⟨0, 0⟩, none⟩) ∧
      (session.value.selection.start ≠ 0 → ∃ front char back,
        session.value.value.text = encodeUtf8 (front ++ char :: back) ∧
        session.value.selection.start = (encodeUtf8 (front ++ [char])).length ∧
        value = ⟨encodeUtf8 (front ++ back),
          ⟨(encodeUtf8 front).length, (encodeUtf8 front).length⟩, none⟩) := by
  have ran : text.handle convert (.char 8 reply) = ({ text with
      messages := text.messages + 1 }.emitValue
        (session.value.replaceRange session.backspaceRange [] .own 0 false) reply).2 := by
    unfold Win32Text.handle
    dsimp only
    rw [active]
    dsimp only
    rw [if_neg (not_not_intro client)]
    have typed : session.performsAction 8 = false := decide_eq_false fun both =>
      absurd both.1 (by decide)
    unfold processCharacter
    rw [typed]
    rfl
  rw [ran, emit_passed]
  refine ⟨_, rfl, ?_, ?_⟩
  · intro start
    have range : session.backspaceRange = ⟨0, 0⟩ := by
      unfold Win32Session.backspaceRange
      dsimp only
      rw [if_neg fun both => both.2 start]
      rw [start] at collapsed
      exact congrArg₂ TextRange.mk start collapsed.symm
    rw [range, removed_value _ (Nat.le_refl 0)]
    rfl
  · intro inside
    obtain ⟨front, char, back, text, start, range⟩ := backspace_cuts valid.value collapsed inside
    refine ⟨front, char, back, text, start, ?_⟩
    have stop : session.value.selection.stop = (encodeUtf8 (front ++ [char])).length :=
      collapsed.symm.trans start
    have ordered : (encodeUtf8 front).length ≤ session.value.selection.stop := by
      rw [stop, encode_append, List.length_append]
      exact Nat.le_add_right _ _
    have split : encodeUtf8 (front ++ char :: back) =
        encodeUtf8 (front ++ [char]) ++ encodeUtf8 back := by
      rw [← encode_append, List.append_assoc]
      rfl
    have before : (encodeUtf8 (front ++ char :: back)).take (encodeUtf8 front).length =
        encodeUtf8 front := by
      rw [encode_append, List.take_left]
    have after : (encodeUtf8 (front ++ char :: back)).drop session.value.selection.stop =
        encodeUtf8 back := by
      rw [split, stop, List.drop_left]
    rw [range, removed_value _ ordered, text, before, after, ← encode_append]

/-- A message with which a composition goes on without a result, while the client only
takes note. -/
def Composes : Win32Message → Prop
  | .composition (some reading) => reading.result = none ∧ reading.compositionReply = .returns
  | .composition none => True
  | .imeChar => True
  | .other => True
  | _ => False

/-- A composition is under way, and the value from before it is kept. -/
def Composing (text : Win32Text) (saved : TracedValue) : Prop :=
  ∃ session, text.active = some session ∧ session.client = true ∧
    session.beforeComposition = some saved

theorem Composing.handle {saved : TracedValue} (composing : text.Composing saved)
    {message : Win32Message} (composes : Composes message) :
    (text.handle convert message).Composing saved := by
  obtain ⟨session, active, client, before⟩ := composing
  have kept : { text with messages := text.messages + 1 }.Composing saved :=
    ⟨session, active, client, before⟩
  unfold Win32Text.handle
  dsimp only
  rw [active]
  dsimp only
  rw [if_neg (not_not_intro client)]
  rw [active] at kept
  cases message with
  | char character reply => cases composes
  | imeChar => exact kept
  | startComposition => cases composes
  | endComposition reply => cases composes
  | other => exact kept
  | composition reading =>
    cases reading with
    | none => exact kept
    | some reading =>
      obtain ⟨unread, notes⟩ := composes
      have result : readResult convert reading = .ok none := by
        unfold readResult
        rw [unread]
      unfold processComposition
      dsimp only
      rw [result]
      cases read : readComposition convert reading with
      | error failure => exact kept
      | ok composition =>
        dsimp only
        split
        · exact kept
        cases composition with
        | none => exact kept
        | some composition =>
          change (Win32Text.compose _ composition reading.compositionReply).Composing saved
          rw [notes]
          unfold Win32Text.compose
          dsimp only
          rw [before]
          obtain ⟨stored, after, -⟩ := @emit_returns
            { text with
              active := some { session with beforeComposition := some saved }
              messages := text.messages + 1 }
            { session with beforeComposition := some saved } rfl client
            (session.value.replaceRange (session.value.composing.getD session.value.selection)
              composition.1 .composed composition.2 true)
          exact ⟨_, after, client, rfl⟩

/-- A composition without a result ends with the value from before it. -/
theorem composition_restores (valid : session.Valid) (active : text.active = some session)
    (client : session.client = true) {messages : List Win32Message}
    (composes : ∀ message ∈ messages, Composes message) :
    let whole : List Win32Message := .startComposition :: messages ++ [.endComposition .returns]
    let last := whole.foldl (handle convert) text
    last.active.map Win32Session.value = some session.value ∧
      last.passed.getLast? = some session.value.value := by
  have started : (text.handle convert .startComposition).Composing session.value := by
    unfold Win32Text.handle
    dsimp only
    rw [active]
    dsimp only
    rw [if_neg (not_not_intro client)]
    exact ⟨_, rfl, client, rfl⟩
  have along : ∀ (messages : List Win32Message) (text : Win32Text), text.Composing session.value →
      (∀ message ∈ messages, Composes message) →
      (messages.foldl (handle convert) text).Composing session.value := by
    intro messages
    induction messages with
    | nil => exact fun _ composing _ => composing
    | cons message rest ih =>
      intro text composing all
      exact ih _ (composing.handle (all message List.mem_cons_self)) fun later member =>
        all later (List.mem_cons_of_mem _ member)
  obtain ⟨last, reached, alive, before⟩ := along messages _ started composes
  dsimp only
  simp only [List.foldl_append, List.foldl_cons, List.foldl_nil]
  generalize messages.foldl (handle convert) (text.handle convert .startComposition) = composed at *
  have ended : composed.handle convert (.endComposition .returns) = ({ composed with
      active := some { last with pendingHighSurrogate := none, beforeComposition := none }
      messages := composed.messages + 1 }.emitValue session.value .returns).2 := by
    unfold Win32Text.handle
    dsimp only
    rw [reached]
    dsimp only
    rw [if_neg (not_not_intro alive), before]
  rw [ended, emit_passed]
  obtain ⟨stored, after, same⟩ := @emit_returns
    { composed with
      active := some { last with pendingHighSurrogate := none, beforeComposition := none }
      messages := composed.messages + 1 }
    { last with pendingHighSurrogate := none, beforeComposition := none } rfl alive session.value
  rw [after, same valid.value]
  exact ⟨rfl, List.getLast?_concat⟩

/-- In every run of a session with well-formed strings of the input method: every value
that is passed on is valid; a backspace with a collapsed selection removes the scalar value
before it, and nothing at the start; a composition that ends without a result restores the
value from before it. -/
theorem win32_text_valid (converts : Converts convert)
    (reached : Reaches (win32Machine convert) (fun _ action => action.WellFormed) text) :
    (∀ value ∈ text.passed, value.valid = true) ∧
    ∀ session ∈ text.active, session.client = true →
      (session.value.selection.start = session.value.selection.stop → ∀ reply, ∃ value,
        (text.handle convert (.char 8 reply)).passed = text.passed ++ [value] ∧
        (session.value.selection.start = 0 → value = ⟨session.value.value.text, ⟨0, 0⟩, none⟩) ∧
        (session.value.selection.start ≠ 0 → ∃ front char back,
          session.value.value.text = encodeUtf8 (front ++ char :: back) ∧
          session.value.selection.start = (encodeUtf8 (front ++ [char])).length ∧
          value = ⟨encodeUtf8 (front ++ back),
            ⟨(encodeUtf8 front).length, (encodeUtf8 front).length⟩, none⟩)) ∧
      ∀ messages : List Win32Message, (∀ message ∈ messages, Composes message) →
        let whole : List Win32Message := .startComposition :: messages ++ [.endComposition .returns]
        let last := whole.foldl (handle convert) text
        last.active.map Win32Session.value = some session.value ∧
          last.passed.getLast? = some session.value.value := by
  have sound := Sound.of_reachable converts reached
  apply And.intro sound.passed
  intro session active client
  have valid := sound.session session active
  constructor
  · exact backspace_removes valid active client
  · intro messages composes
    exact composition_restores valid active client composes

/-- A conversion that decodes and encodes again. -/
def decodingConversion (wide : List UInt16) : Option (List UInt8) :=
  (decodeUtf16 wide).map encodeUtf8

theorem decoding_converts : Converts decodingConversion := by
  intro chars _
  unfold decodingConversion
  rw [decode_encode_utf16]
  rfl

theorem win32_text_valid_pair :
    ∃ text, Reaches (win32Machine decodingConversion) (fun _ action => action.WellFormed) text ∧
      text.passed = [⟨[0xf0, 0x9f, 0x98, 0x80], ⟨4, 4⟩, none⟩] ∧
      ∀ value ∈ text.passed, value.valid = true := by
  have first : Reaches (win32Machine decodingConversion) (fun _ action => action.WellFormed)
      (started {} {}) := .start ⟨{}, {}, rfl, rfl⟩
  have second : Reaches (win32Machine decodingConversion) (fun _ action => action.WellFormed)
      ((started {} {}).perform decodingConversion (.message (.char 0xd83d .returns))) :=
    first.step (show (Win32Action.message (.char 0xd83d .returns)).WellFormed from trivial) rfl
  have third : Reaches (win32Machine decodingConversion) (fun _ action => action.WellFormed)
      (((started {} {}).perform decodingConversion (.message (.char 0xd83d .returns))).perform
        decodingConversion (.message (.char 0xde00 .returns))) :=
    second.step (show (Win32Action.message (.char 0xde00 .returns)).WellFormed from trivial) rfl
  refine ⟨_, third, ?_, (win32_text_valid decoding_converts third).1⟩
  decide

end Win32Text

end Dui
