import Dui.Win32TextInput

/-!
# Committed text in a Win32 session

The end of a composition restores the value that was saved when it started. A result of
the input method drops the saved value, but a character does not: text that is typed while
a value is saved is lost with the end. As long as none is, an end removes composition text
and nothing else.
-/

namespace Dui

open Transition

/-- Does the character insert text, rather than perform an action, remove text or wait for
the second half of a pair? -/
def Win32Session.inserts (session : Win32Session) (character : UInt16) : Bool :=
  ¬ session.performsAction character ∧ character ≠ 8 ∧ ¬ isHighSurrogate character ∧
    (isLowSurrogate character → session.pendingHighSurrogate.isSome)

/-- The client does not answer with an update. -/
def ClientReply.Quiet (reply : ClientReply) : Prop :=
  ∀ value cancels, reply ≠ .updates value cancels

/-- No update of the application is part of the action. -/
def Win32Action.Quiet : Win32Action → Prop
  | .update .. => False
  | .message (.char _ reply) => reply.Quiet
  | .message (.composition (some reading)) =>
    reading.resultReply.Quiet ∧ reading.compositionReply.Quiet
  | .message (.endComposition reply) => reply.Quiet
  | _ => True

/-- A character inserts text only where no value from before a composition is saved. -/
def Win32Text.TypesUnsaved (text : Win32Text) (action : Win32Action) : Prop :=
  action.Quiet ∧ ∀ character reply, action = .message (.char character reply) →
    ∀ session ∈ text.active, session.inserts character = true → session.beforeComposition = none

/-- The text without what belongs to compositions: it was committed, or is the
application's. -/
def TracedValue.settled (traced : TracedValue) : List TextByte :=
  traced.text.filter fun byte => byte.origin ≠ .composed

/-! ### Replacing -/

theorem cut_sublist {bytes : List TextByte} {start stop : Nat} (ordered : start ≤ stop) :
    List.Sublist (bytes.take start ++ bytes.drop stop) bytes := by
  obtain ⟨length, rfl⟩ := Nat.exists_eq_add_of_le ordered
  have later : List.Sublist (bytes.drop (start + length)) (bytes.drop start) := by
    rw [← List.drop_drop]
    exact List.drop_sublist _ _
  have whole := (List.Sublist.refl (bytes.take start)).append later
  rw [List.take_append_drop] at whole
  exact whole

/-- Composition text in place of a range settles nothing. -/
theorem composed_settled (traced : TracedValue) (range : TextRange) (replacement : List UInt8)
    (cursor : Nat) (composing : Bool) :
    List.Sublist (traced.replaceRange range replacement .composed cursor composing).settled
      traced.settled := by
  unfold TracedValue.settled TracedValue.replaceRange
  dsimp only
  have none : (replacement.map fun byte => (⟨byte, .composed⟩ : TextByte)).filter
      (fun byte => byte.origin ≠ .composed) = [] := by
    rw [List.filter_eq_nil_iff]
    intro byte member
    obtain ⟨own, -, rfl⟩ := List.mem_map.mp member
    simp
  rw [List.filter_append, List.filter_append, none, List.append_nil, ← List.filter_append]
  exact (cut_sublist (Nat.le_add_right _ _)).filter _

theorem removed_settled (traced : TracedValue) (range : TextRange) (origin : TextOrigin)
    (cursor : Nat) (composing : Bool) :
    List.Sublist (traced.replaceRange range [] origin cursor composing).settled
      traced.settled := by
  unfold TracedValue.settled TracedValue.replaceRange
  dsimp only
  rw [List.map_nil, List.append_nil]
  exact (cut_sublist (Nat.le_add_right _ _)).filter _

/-! ### The invariant -/

/-- Whatever is settled is also in the saved value. -/
def Win32Session.Saves (session : Win32Session) : Prop :=
  ∀ saved ∈ session.beforeComposition, List.Sublist session.value.settled saved.settled

namespace Win32Text

def Saves (text : Win32Text) : Prop := ∀ session ∈ text.active, session.Saves

variable {convert : List UInt16 → Option (List UInt8)} {text : Win32Text} {session : Win32Session}

theorem saves_some (saves : session.Saves) (passed : List TextEditingValue) (messages : Nat) :
    Saves ⟨some session, passed, messages⟩ := by
  intro other same
  obtain rfl := Option.some.inj same
  exact saves

theorem tell_quiet {reply : ClientReply} (quiet : reply.Quiet) (text : Win32Text) :
    (text.tell reply).2.active = none ∨ (text.tell reply).2.active = text.active := by
  cases reply with
  | returns => exact .inr rfl
  | throws => exact .inr rfl
  | updates value cancels => exact absurd rfl (quiet value cancels)
  | stops => exact .inl rfl

/-- What the session is once a value is passed on and the client does not update it. -/
theorem emit_quiet {reply : ClientReply} (quiet : reply.Quiet) (active : text.active = some session)
    (value : TracedValue) :
    ∀ after ∈ (text.emitValue value reply).2.active, ∃ stored,
      after = { session with value := stored } ∧ (stored = value ∨ stored = session.value) := by
  intro after
  unfold emitValue
  dsimp only
  split
  · intro same
    rw [active] at same
    exact ⟨session.value, (Option.some.inj same).symm, .inr rfl⟩
  rw [active]
  dsimp only
  split
  · exact fun member => absurd member (Option.not_mem_none _)
  have told := tell_quiet quiet { text with
    active := some { session with value }
    passed := text.passed ++ [value.value] }
  have stored : ∀ told' : Win32Text, (told'.active = none ∨
      told'.active = some { session with value }) → after ∈ told'.active →
      ∃ stored, after = { session with value := stored } ∧
        (stored = value ∨ stored = session.value) := by
    rintro told' (empty | same) member
    · rw [empty] at member
      cases member
    · rw [same] at member
      exact ⟨value, (Option.some.inj member).symm, .inl rfl⟩
  split
  next same =>
    rw [same] at told
    exact stored _ told
  next same =>
    rw [same] at told
    exact stored _ told

/-- A value that settles no more than before is passed on. -/
theorem Saves.emit {reply : ClientReply} (quiet : reply.Quiet) (active : text.active = some session)
    (saves : session.Saves) {value : TracedValue}
    (less : List.Sublist value.settled session.value.settled) :
    (text.emitValue value reply).2.Saves := by
  intro after member
  obtain ⟨stored, rfl, rfl | rfl⟩ := emit_quiet quiet active value after member
  · exact fun saved before => less.trans (saves saved before)
  · exact saves

/-- Any value is passed on where none is saved. -/
theorem Saves.emit_unsaved {reply : ClientReply} (quiet : reply.Quiet)
    (active : text.active = some session) (unsaved : session.beforeComposition = none)
    (value : TracedValue) : (text.emitValue value reply).2.Saves := by
  intro after member saved before
  obtain ⟨stored, rfl, -⟩ := emit_quiet quiet active value after member
  rw [show session.beforeComposition = some saved from before] at unsaved
  cases unsaved

theorem Saves.insert {reply : ClientReply} (quiet : reply.Quiet)
    (active : text.active = some session) (unsaved : session.beforeComposition = none)
    (characters : List UInt16) :
    (text.insertCharacters convert session characters reply).Saves := by
  unfold insertCharacters
  split
  · intro other member saved before
    rw [active] at member
    obtain rfl := Option.some.inj member
    rw [unsaved] at before
    cases before
  · exact Saves.emit_unsaved quiet active unsaved _

theorem Saves.process_character {reply : ClientReply} (quiet : reply.Quiet)
    (active : text.active = some session) (saves : session.Saves) {character : UInt16}
    (unsaved : session.inserts character = true → session.beforeComposition = none) :
    (text.processCharacter convert session character reply).Saves := by
  have kept : text.Saves := by
    intro other member
    rw [active] at member
    obtain rfl := Option.some.inj member
    exact saves
  have insert : session.inserts character = true → ∀ characters,
      ({ text with active := some { session with pendingHighSurrogate := none } }.insertCharacters
        convert { session with pendingHighSurrogate := none } characters reply).Saves := by
    intro inserts characters
    have settled : { session with pendingHighSurrogate := none }.beforeComposition = none :=
      unsaved inserts
    exact Saves.insert quiet rfl settled characters
  unfold processCharacter
  dsimp only
  split_ifs with action alive return' backspace high low backspace high low
  · intro other member
    obtain empty | same := tell_quiet quiet text
    · rw [empty] at member
      cases member
    · rw [same] at member
      exact kept other member
  · exact fun _ member => absurd member (Option.not_mem_none _)
  · exact absurd backspace (by decide)
  · exact absurd high (by decide)
  · exact absurd low (by decide)
  · -- a return that inserts a line break
    apply insert
    unfold Win32Session.inserts
    rw [decide_eq_true_eq, return']
    rw [return'] at action
    exact ⟨action, by decide, by decide, fun low => absurd low (by decide)⟩
  · exact Saves.emit quiet active saves (removed_settled _ _ _ _ _)
  · have pending : { session with pendingHighSurrogate := some character }.Saves := saves
    exact saves_some pending _ _
  · split
    · exact kept
    next first pending =>
      apply insert
      unfold Win32Session.inserts
      rw [decide_eq_true_eq, pending]
      exact ⟨action, backspace, high, fun _ => rfl⟩
  · apply insert
    unfold Win32Session.inserts
    rw [decide_eq_true_eq]
    exact ⟨action, backspace, high, fun other => absurd other low⟩

theorem Saves.commit_result {reply : ClientReply} (quiet : reply.Quiet)
    (active : text.active = some session) (saves : session.Saves)
    (result : Option (List UInt8)) : (text.commitResult session result reply).2.Saves := by
  cases result with
  | none =>
    intro other member
    rw [show (text.commitResult session none reply).2 = text from rfl, active] at member
    obtain rfl := Option.some.inj member
    exact saves
  | some result =>
    have dropped : { session with beforeComposition := none }.beforeComposition = none := rfl
    have emitted := Saves.emit_unsaved quiet
      (show { text with active := some { session with beforeComposition := none } }.active = _
        from rfl) dropped
      (session.value.replaceRange (session.value.composing.getD session.value.selection) result
        (.committed text.messages) result.length false)
    unfold commitResult
    dsimp only
    split
    next same =>
      rw [same] at emitted
      exact emitted
    next same =>
      rw [same] at emitted
      exact emitted

theorem Saves.compose {reply : ClientReply} (quiet : reply.Quiet) (kept : text.Saves)
    (composition : List UInt8 × Nat) : (text.compose composition reply).Saves := by
  unfold Win32Text.compose
  split
  · exact kept
  next session active =>
    have saves : { session with
        beforeComposition := some (session.beforeComposition.getD session.value) }.Saves := by
      intro saved same
      obtain rfl := Option.some.inj same
      cases before : session.beforeComposition with
      | none => exact List.Sublist.refl _
      | some saved => exact kept session active saved before
    exact Saves.emit quiet rfl saves (composed_settled _ _ _ _ _)

theorem Saves.process_composition (active : text.active = some session) (saves : session.Saves)
    {reading : Option CompositionReading}
    (quiet : ∀ own ∈ reading, own.resultReply.Quiet ∧ own.compositionReply.Quiet) :
    (text.processComposition convert session reading).Saves := by
  have kept : text.Saves := by
    intro other member
    rw [active] at member
    obtain rfl := Option.some.inj member
    exact saves
  unfold processComposition
  split
  · exact kept
  next reading =>
    obtain ⟨first, second⟩ := quiet reading rfl
    split
    next result composition _ _ =>
      split_ifs
      · have committed := Saves.commit_result first active saves result
        rcases same : text.commitResult session result reading.resultReply with
          ⟨goesOn, committedText⟩
        rw [same] at committed
        cases goesOn with
        | false => exact committed
        | true =>
          cases composition with
          | none => exact committed
          | some composition => exact Saves.compose second committed composition
      · exact kept
    · exact kept

/-- One message, where a character inserts text only if no value is saved. -/
theorem Saves.handle (kept : text.Saves) {message : Win32Message}
    (guarded : text.TypesUnsaved (.message message)) : (text.handle convert message).Saves := by
  obtain ⟨quiet, unsaved⟩ := guarded
  unfold Win32Text.handle
  dsimp only
  split
  next empty =>
    intro other member
    rw [show text.active = some other from member] at empty
    cases empty
  next session active =>
    have saves := kept session active
    have counted : ({ text with messages := text.messages + 1 } : Win32Text).active =
      some session := active
    by_cases expired : ¬ session.client
    · rw [if_pos expired]
      intro other member
      cases member
    rw [if_neg expired]
    cases message with
    | char character reply =>
      exact Saves.process_character quiet counted saves
        (unsaved character reply rfl session active)
    | imeChar => exact kept
    | startComposition =>
      apply saves_some
      intro saved same
      obtain rfl := Option.some.inj same
      exact List.Sublist.refl _
    | composition reading =>
      apply Saves.process_composition counted saves
      intro own given
      rw [Option.mem_def.mp given] at quiet
      exact quiet
    | endComposition reply =>
      dsimp only
      split
      next before =>
        apply saves_some
        intro saved same
        rw [show session.beforeComposition = some saved from same] at before
        cases before
      next saved before =>
        have dropped : { session with
            pendingHighSurrogate := none, beforeComposition := none }.beforeComposition =
            none := rfl
        exact Saves.emit_unsaved quiet rfl dropped saved
    | other => exact kept

theorem Saves.of_reachable (reached : Reaches (win32Machine convert) TypesUnsaved text) :
    text.Saves := by
  apply reached.invariant Saves
  · rintro _ ⟨configuration, value, -, rfl⟩
    apply saves_some
    exact fun _ member => absurd member (Option.not_mem_none _)
  · intro state action next kept guarded stepped
    obtain rfl := Option.some.inj stepped
    cases action with
    | message message => exact kept.handle guarded
    | update value cancels => exact absurd guarded.1 id
    | expire =>
      intro session same
      obtain ⟨own, active, rfl⟩ := Option.map_eq_some_iff.mp same
      exact kept own active

/-- In every run without updates in which characters insert text only while no value is
saved, the end of a composition removes nothing that is settled. -/
theorem win32_commits_survive (reached : Reaches (win32Machine convert) TypesUnsaved text)
    {session after : Win32Session} {reply : ClientReply} (quiet : reply.Quiet)
    (active : text.active = some session)
    (ended : (text.handle convert (.endComposition reply)).active = some after) :
    List.Sublist session.value.settled after.value.settled := by
  have kept := Saves.of_reachable reached
  unfold Win32Text.handle at ended
  dsimp only at ended
  rw [active] at ended
  dsimp only at ended
  split at ended
  · cases ended
  split at ended
  · obtain rfl := Option.some.inj ended
    exact List.Sublist.refl _
  next saved before =>
    obtain ⟨stored, rfl, rfl | rfl⟩ := emit_quiet quiet rfl saved after ended
    · exact kept session active stored before
    · exact List.Sublist.refl _

/-- A conversion of single units below the surrogates that are ASCII. -/
def asciiConversion : List UInt16 → Option (List UInt8) :=
  List.mapM fun unit => if unit < 0x80 then some unit.toUInt8 else none

theorem returns_quiet : ClientReply.returns.Quiet := by
  intro value cancels
  nofun

/-- "a", then a composition that never has a result: its text goes, "a" stays. -/
theorem win32_commits_survive_composition :
    ∃ text session after, Reaches (win32Machine asciiConversion) TypesUnsaved text ∧
      text.active = some session ∧
      (text.handle asciiConversion (.endComposition .returns)).active = some after ∧
      session.value.value.text = [0x61, 0x62] ∧ after.value.value.text = [0x61] ∧
      List.Sublist session.value.settled after.value.settled := by
  let typed := (started {} {}).perform asciiConversion (.message (.char 0x61 .returns))
  let begun := typed.perform asciiConversion (.message .startComposition)
  let reading : CompositionReading := { composition := some (.ok [0x62]), cursor := 1 }
  let composed := begun.perform asciiConversion (.message (.composition (some reading)))
  have initial : Reaches (win32Machine asciiConversion) TypesUnsaved (started {} {}) :=
    .start ⟨{}, {}, rfl, rfl⟩
  have types : (started {} {}).TypesUnsaved (.message (.char 0x61 .returns)) := by
    constructor
    · exact returns_quiet
    · intro character reply _ session active _
      obtain rfl := Option.some.inj active
      rfl
  have first : Reaches (win32Machine asciiConversion) TypesUnsaved typed := initial.step types rfl
  have begins : typed.TypesUnsaved (.message .startComposition) := ⟨trivial, by nofun⟩
  have second : Reaches (win32Machine asciiConversion) TypesUnsaved begun := first.step begins rfl
  have composes : begun.TypesUnsaved (.message (.composition (some reading))) :=
    ⟨⟨returns_quiet, returns_quiet⟩, by nofun⟩
  have third : Reaches (win32Machine asciiConversion) TypesUnsaved composed :=
    second.step composes rfl
  refine ⟨composed, _, _, third, rfl, rfl, ?_, ?_,
    win32_commits_survive third returns_quiet rfl rfl⟩
  · decide
  · decide

/-- "a" is typed while a composition has started, and is gone with its end. -/
theorem typed_while_composing_lost :
    ∃ text session after,
      Reaches (win32Machine asciiConversion) (fun _ action => action.Quiet) text ∧
      text.active = some session ∧
      (text.handle asciiConversion (.endComposition .returns)).active = some after ∧
      session.value.text = [⟨0x61, .committed 2⟩] ∧ after.value.text = [] ∧
      ¬ List.Sublist session.value.settled after.value.settled := by
  let begun := (started {} {}).perform asciiConversion (.message .startComposition)
  let typed := begun.perform asciiConversion (.message (.char 0x61 .returns))
  have initial : Reaches (win32Machine asciiConversion) (fun _ action => action.Quiet)
      (started {} {}) := .start ⟨{}, {}, rfl, rfl⟩
  have begins : (Win32Action.message .startComposition).Quiet := trivial
  have first : Reaches (win32Machine asciiConversion) (fun _ action => action.Quiet) begun :=
    initial.step begins rfl
  have types : (Win32Action.message (.char 0x61 .returns)).Quiet := returns_quiet
  have second : Reaches (win32Machine asciiConversion) (fun _ action => action.Quiet) typed :=
    first.step types rfl
  refine ⟨typed, _, _, second, rfl, rfl, ?_, ?_, ?_⟩
  · decide
  · decide
  · decide

end Win32Text

end Dui
