import Mathlib.Data.List.Basic
import Dui.TextEditing

/-! Well-formed text: what `is_valid_utf8` and `TextRange::valid_for` accept. The encoding of
a scalar value is that of the language's own characters. -/
namespace Dui

/-- The encodings of some scalar values, one after the other. -/
def encodeUtf8 (chars : List Char) : List UInt8 := chars.flatMap String.utf8EncodeChar

/-- The text is a concatenation of encodings. -/
def WellFormedUtf8 (text : List UInt8) : Prop := ∃ chars, text = encodeUtf8 chars

/-- The offset is between two encodings of the text, or at one of its ends. -/
def EncodingBoundary (text : List UInt8) (offset : Nat) : Prop :=
  ∃ before after, text = encodeUtf8 (before ++ after) ∧ offset = (encodeUtf8 before).length

/-! The same loop with the indexes that the code reads at. -/

/-- The continuation bytes from an index on, and the code point after them; `none` is a read
past the end. -/
def continueAt (text : List UInt8) : Nat → Nat → Nat → Option (Option Nat)
  | _, 0, codePoint => some (some codePoint)
  | index, count + 1, codePoint => do
    let continuation ← text[index]?
    if continuation &&& 0xc0 ≠ 0x80 then some none
    else continueAt text (index + 1) count (codePoint * 64 + (continuation &&& 0x3f).toNat)

/-- A turn of the loop: the next index, unless the text is found to be malformed. -/
def validateAt (text : List UInt8) (index : Nat) : Option (Option Nat) := do
  let first ← text[index]?
  match sequenceHead first with
  | none => some none
  | some (length, leading, minimum) =>
    if length > text.length - index then some none
    else
      match ← continueAt text (index + 1) (length - 1) leading with
      | none => some none
      | some codePoint =>
        if codePoint < minimum ∨ codePoint > 0x10ffff ∨
            (codePoint ≥ 0xd800 ∧ codePoint ≤ 0xdfff) then some none
        else some (some (index + length))

/-- The loop; `none` is a read past the end, or that it has not come to an end after so many
turns. -/
def validateFrom (text : List UInt8) : Nat → Nat → Option Bool
  | fuel, index =>
    if index < text.length then
      match fuel with
      | 0 => none
      | fuel + 1 => do
        match ← validateAt text index with
        | none => some false
        | some next => validateFrom text fuel next
    else some true

/-! Bytes. -/

section Bytes

theorem byte_all {holds : UInt8 → Prop} (each : ∀ value : Fin 256, holds (UInt8.ofNat value))
    (byte : UInt8) : holds byte := by
  have same : UInt8.ofNat (byte.toNat) = byte := UInt8.ofNat_toNat
  rw [← same]
  exact each ⟨byte.toNat, byte.toNat_lt⟩

/-- What the masks of the decoder say about the value of a byte. -/
theorem head_masks (byte : UInt8) :
    (byte &&& 0xe0 = 0xc0 ↔ 0xc0 ≤ byte.toNat ∧ byte.toNat < 0xe0) ∧
      (byte &&& 0xf0 = 0xe0 ↔ 0xe0 ≤ byte.toNat ∧ byte.toNat < 0xf0) ∧
      (byte &&& 0xf8 = 0xf0 ↔ 0xf0 ≤ byte.toNat ∧ byte.toNat < 0xf8) ∧
      (byte &&& 0xc0 = 0x80 ↔ 0x80 ≤ byte.toNat ∧ byte.toNat < 0xc0) := by
  revert byte
  exact byte_all (by decide +kernel)

theorem two_byte_head (byte : UInt8) :
    byte &&& 0xe0 = 0xc0 ↔ 0xc0 ≤ byte.toNat ∧ byte.toNat < 0xe0 :=
  (head_masks byte).1

theorem three_byte_head (byte : UInt8) :
    byte &&& 0xf0 = 0xe0 ↔ 0xe0 ≤ byte.toNat ∧ byte.toNat < 0xf0 :=
  (head_masks byte).2.1

theorem four_byte_head (byte : UInt8) :
    byte &&& 0xf8 = 0xf0 ↔ 0xf0 ≤ byte.toNat ∧ byte.toNat < 0xf8 :=
  (head_masks byte).2.2.1

theorem continuation_byte (byte : UInt8) :
    byte &&& 0xc0 = 0x80 ↔ 0x80 ≤ byte.toNat ∧ byte.toNat < 0xc0 :=
  (head_masks byte).2.2.2

theorem payload_bits (byte : UInt8) :
    (byte &&& 0x1f).toNat = byte.toNat % 32 ∧ (byte &&& 0x0f).toNat = byte.toNat % 16 ∧
      (byte &&& 0x07).toNat = byte.toNat % 8 ∧ (byte &&& 0x3f).toNat = byte.toNat % 64 := by
  simp only [UInt8.toNat_and]
  exact ⟨Nat.and_two_pow_sub_one_eq_mod _ 5, Nat.and_two_pow_sub_one_eq_mod _ 4,
    Nat.and_two_pow_sub_one_eq_mod _ 3, Nat.and_two_pow_sub_one_eq_mod _ 6⟩

/-- `sequenceHead` by the value of the byte. -/
theorem sequence_head_eq (first : UInt8) : sequenceHead first =
    if first.toNat ≤ 0x7f then some (1, first.toNat, 0)
    else if 0xc0 ≤ first.toNat ∧ first.toNat < 0xe0 then some (2, first.toNat % 32, 0x80)
    else if 0xe0 ≤ first.toNat ∧ first.toNat < 0xf0 then some (3, first.toNat % 16, 0x800)
    else if 0xf0 ≤ first.toNat ∧ first.toNat < 0xf8 then some (4, first.toNat % 8, 0x10000)
    else none := by
  obtain ⟨five, four, three, _⟩ := payload_bits first
  have small : first ≤ 0x7f ↔ first.toNat ≤ 0x7f := UInt8.le_iff_toNat_le
  unfold sequenceHead
  rw [five, four, three]
  simp only [small, two_byte_head, three_byte_head, four_byte_head]

/-- Is this the value of a continuation byte? -/
def Continues (byte : UInt8) : Prop := 0x80 ≤ byte.toNat ∧ byte.toNat < 0xc0

theorem continue_code_point_iff {bytes : List UInt8} : ∀ {codePoint result : Nat},
    continueCodePoint codePoint bytes = some result ↔
      (∀ byte ∈ bytes, Continues byte) ∧
        result = bytes.foldl (fun codePoint byte => codePoint * 64 + byte.toNat % 64) codePoint := by
  induction bytes with
  | nil => simp [continueCodePoint, eq_comm]
  | cons byte rest ih =>
    intro codePoint result
    rw [continueCodePoint, (payload_bits byte).2.2.2]
    split
    case isTrue malformed =>
      rw [ne_eq, continuation_byte] at malformed
      simp [Continues, malformed]
    case isFalse continues =>
      rw [not_not, continuation_byte] at continues
      rw [ih]
      simp [Continues, continues]

end Bytes

/-! Encodings. -/

section Encodings
variable {char : Char}

/-- The scalar value with the given number. -/
theorem scalar_value {codePoint : Nat}
    (valid : ¬(codePoint > 0x10ffff ∨ (codePoint ≥ 0xd800 ∧ codePoint ≤ 0xdfff))) :
    ∃ char : Char, char.val.toNat = codePoint := by
  have legal : codePoint.isValidChar := by
    unfold Nat.isValidChar
    omega
  exact ⟨Char.ofNatAux codePoint legal, rfl⟩

theorem scalar_bounds (char : Char) :
    ¬(char.val.toNat > 0x10ffff ∨ (char.val.toNat ≥ 0xd800 ∧ char.val.toNat ≤ 0xdfff)) := by
  have legal : char.val.toNat.isValidChar := char.valid
  unfold Nat.isValidChar at legal
  omega

theorem same_byte (byte : UInt8) {value : Nat} (same : byte.toNat = value % 256) :
    byte = UInt8.ofNat value := UInt8.toNat.inj (same.trans UInt8.toNat_ofNat'.symm)

theorem byte_value (value : Nat) (small : value < 256) : (UInt8.ofNat value).toNat = value :=
  UInt8.toNat_ofNat'.trans (Nat.mod_eq_of_lt small)

theorem encode_one (size : char.val.toNat ≤ 0x7f) :
    String.utf8EncodeChar char = [UInt8.ofNat char.val.toNat] := by
  unfold String.utf8EncodeChar
  rw [if_pos size]

theorem encode_two (low : ¬char.val.toNat ≤ 0x7f) (size : char.val.toNat ≤ 0x7ff) :
    String.utf8EncodeChar char =
      [UInt8.ofNat (char.val.toNat / 64 % 32 + 0xc0), UInt8.ofNat (char.val.toNat % 64 + 0x80)] := by
  unfold String.utf8EncodeChar
  rw [if_neg low, if_pos size]

theorem encode_three (low : ¬char.val.toNat ≤ 0x7ff) (size : char.val.toNat ≤ 0xffff) :
    String.utf8EncodeChar char =
      [UInt8.ofNat (char.val.toNat / 4096 % 16 + 0xe0),
        UInt8.ofNat (char.val.toNat / 64 % 64 + 0x80), UInt8.ofNat (char.val.toNat % 64 + 0x80)] := by
  unfold String.utf8EncodeChar
  rw [if_neg (by omega), if_neg low, if_pos size]

theorem encode_four (low : ¬char.val.toNat ≤ 0xffff) :
    String.utf8EncodeChar char =
      [UInt8.ofNat (char.val.toNat / 262144 % 8 + 0xf0),
        UInt8.ofNat (char.val.toNat / 4096 % 64 + 0x80),
        UInt8.ofNat (char.val.toNat / 64 % 64 + 0x80), UInt8.ofNat (char.val.toNat % 64 + 0x80)] := by
  unfold String.utf8EncodeChar
  rw [if_neg (by omega), if_neg (by omega), if_neg low]

/-- What a turn of the loop asks of a sequence. -/
theorem drop_code_point_some {first : UInt8} {rest tail : List UInt8} :
    dropCodePoint first rest = some tail ↔ ∃ bytes leading minimum codePoint,
      rest = bytes ++ tail ∧ sequenceHead first = some (bytes.length + 1, leading, minimum) ∧
        continueCodePoint leading bytes = some codePoint ∧ minimum ≤ codePoint ∧
        ¬(codePoint > 0x10ffff ∨ (codePoint ≥ 0xd800 ∧ codePoint ≤ 0xdfff)) := by
  unfold dropCodePoint
  cases headed : sequenceHead first with
  | none => simp
  | some head =>
    obtain ⟨length, leading, minimum⟩ := head
    have positive : 1 ≤ length := by
      rw [sequence_head_eq] at headed
      repeat' split at headed
      all_goals cases headed
      all_goals omega
    constructor
    · intro dropped
      simp only [Option.bind_eq_bind, Option.bind_some] at dropped
      split at dropped
      · cases dropped
      · obtain ⟨codePoint, continued, dropped⟩ := Option.bind_eq_some_iff.mp dropped
        split at dropped
        · cases dropped
        · cases dropped
          refine ⟨rest.take (length - 1), leading, minimum, codePoint,
            (List.take_append_drop _ _).symm, ?_, continued, by omega, by omega⟩
          rw [List.length_take, min_eq_left (by omega), Nat.sub_add_cancel positive]
    · rintro ⟨bytes, _, _, codePoint, rfl, same, continued, enough, legal⟩
      cases same
      simp only [Option.bind_eq_bind, Option.bind_some, Nat.add_sub_cancel, List.length_append]
      rw [if_neg (by omega), List.take_left, continued, Option.bind_some, if_neg (by omega),
        List.drop_left]
      rfl

/-- A turn of the loop consumes an encoding. -/
theorem encoding_of_drop {first : UInt8} {rest tail : List UInt8}
    (dropped : dropCodePoint first rest = some tail) :
    ∃ char, first :: rest = String.utf8EncodeChar char ++ tail := by
  obtain ⟨bytes, leading, minimum, codePoint, rfl, headed, continued, enough, legal⟩ :=
    drop_code_point_some.mp dropped
  obtain ⟨continues, result⟩ := continue_code_point_iff.mp continued
  obtain ⟨char, value⟩ := scalar_value legal
  refine ⟨char, ?_⟩
  rw [← List.cons_append]
  congr 1
  rw [sequence_head_eq] at headed
  unfold Continues at continues
  split at headed
  case isTrue =>
    simp only [Option.some.injEq, Prod.mk.injEq] at headed
    obtain ⟨length, rfl, rfl⟩ := headed
    obtain rfl := List.length_eq_zero_iff.mp (show bytes.length = 0 by omega)
    rw [List.foldl_nil] at result
    rw [encode_one (by omega), value, ← same_byte first (by omega)]
  case isFalse =>
    split at headed
    case isTrue =>
      simp only [Option.some.injEq, Prod.mk.injEq] at headed
      obtain ⟨length, rfl, rfl⟩ := headed
      obtain ⟨second, rfl⟩ := List.length_eq_one_iff.mp (show bytes.length = 1 by omega)
      have own := continues second (by simp)
      simp only [List.foldl_cons, List.foldl_nil] at result
      rw [encode_two (by omega) (by omega), value, ← same_byte first (by omega),
        ← same_byte second (by omega)]
    case isFalse =>
      split at headed
      case isTrue =>
        simp only [Option.some.injEq, Prod.mk.injEq] at headed
        obtain ⟨length, rfl, rfl⟩ := headed
        obtain ⟨second, third, rfl⟩ := List.length_eq_two.mp (show bytes.length = 2 by omega)
        have own := continues second (by simp)
        have also := continues third (by simp)
        simp only [List.foldl_cons, List.foldl_nil] at result
        rw [encode_three (by omega) (by omega), value, ← same_byte first (by omega),
          ← same_byte second (by omega), ← same_byte third (by omega)]
      case isFalse =>
        split at headed
        case isFalse => cases headed
        case isTrue =>
          simp only [Option.some.injEq, Prod.mk.injEq] at headed
          obtain ⟨length, rfl, rfl⟩ := headed
          obtain ⟨second, third, fourth, rfl⟩ :=
            List.length_eq_three.mp (show bytes.length = 3 by omega)
          have own := continues second (by simp)
          have also := continues third (by simp)
          have last := continues fourth (by simp)
          simp only [List.foldl_cons, List.foldl_nil] at result
          rw [encode_four (by omega), value, ← same_byte first (by omega),
            ← same_byte second (by omega), ← same_byte third (by omega),
            ← same_byte fourth (by omega)]

/-- An encoding passes the checks of a turn. -/
theorem drop_of_encoding (char : Char) :
    ∃ first bytes, String.utf8EncodeChar char = first :: bytes ∧
      ∀ tail, dropCodePoint first (bytes ++ tail) = some tail := by
  have legal := scalar_bounds char
  suffices passes : ∃ first bytes leading minimum,
      String.utf8EncodeChar char = first :: bytes ∧
        sequenceHead first = some (bytes.length + 1, leading, minimum) ∧
        (∀ byte ∈ bytes, Continues byte) ∧
        char.val.toNat = bytes.foldl
          (fun codePoint byte => codePoint * 64 + byte.toNat % 64) leading ∧
        minimum ≤ char.val.toNat by
    obtain ⟨first, bytes, leading, minimum, encoded, headed, continues, result, enough⟩ := passes
    refine ⟨first, bytes, encoded, fun tail => ?_⟩
    exact drop_code_point_some.mpr ⟨bytes, leading, minimum, char.val.toNat, rfl, headed,
      continue_code_point_iff.mpr ⟨continues, result⟩, enough, legal⟩
  by_cases one : char.val.toNat ≤ 0x7f
  · have head := byte_value char.val.toNat (by omega)
    refine ⟨_, _, char.val.toNat, 0, encode_one one, ?_, nofun, rfl, by omega⟩
    rw [sequence_head_eq, head, if_pos one]
    rfl
  · by_cases two : char.val.toNat ≤ 0x7ff
    · have head := byte_value (char.val.toNat / 64 % 32 + 0xc0) (by omega)
      have own := byte_value (char.val.toNat % 64 + 0x80) (by omega)
      refine ⟨_, _, char.val.toNat / 64 % 32, 0x80, encode_two one two, ?_, ?_, ?_, by omega⟩
      · rw [sequence_head_eq, head, if_neg (by omega), if_pos (by omega)]
        simp only [List.length_singleton]
        congr 3
        omega
      · simp only [Continues, List.mem_singleton, forall_eq, own]
        omega
      · simp only [List.foldl_cons, List.foldl_nil, own]
        omega
    · by_cases three : char.val.toNat ≤ 0xffff
      · have head := byte_value (char.val.toNat / 4096 % 16 + 0xe0) (by omega)
        have own := byte_value (char.val.toNat / 64 % 64 + 0x80) (by omega)
        have also := byte_value (char.val.toNat % 64 + 0x80) (by omega)
        refine ⟨_, _, char.val.toNat / 4096 % 16, 0x800, encode_three two three, ?_, ?_, ?_,
          by omega⟩
        · rw [sequence_head_eq, head, if_neg (by omega), if_neg (by omega), if_pos (by omega)]
          simp only [List.length_cons, List.length_nil]
          congr 3
          omega
        · simp only [Continues, List.mem_cons, List.not_mem_nil, or_false, forall_eq_or_imp,
            forall_eq, own, also]
          omega
        · simp only [List.foldl_cons, List.foldl_nil, own, also]
          omega
      · have head := byte_value (char.val.toNat / 262144 % 8 + 0xf0) (by omega)
        have own := byte_value (char.val.toNat / 4096 % 64 + 0x80) (by omega)
        have also := byte_value (char.val.toNat / 64 % 64 + 0x80) (by omega)
        have last := byte_value (char.val.toNat % 64 + 0x80) (by omega)
        refine ⟨_, _, char.val.toNat / 262144 % 8, 0x10000, encode_four three, ?_, ?_, ?_,
          by omega⟩
        · rw [sequence_head_eq, head, if_neg (by omega), if_neg (by omega), if_neg (by omega),
            if_pos (by omega)]
          simp only [List.length_cons, List.length_nil]
          congr 3
          omega
        · simp only [Continues, List.mem_cons, List.not_mem_nil, or_false, forall_eq_or_imp,
            forall_eq, own, also, last]
          omega
        · simp only [List.foldl_cons, List.foldl_nil, own, also, last]
          omega

/-- Only the first byte of an encoding is no continuation byte. -/
theorem encoding_bytes (char : Char) :
    ∃ first bytes, String.utf8EncodeChar char = first :: bytes ∧ ¬Continues first ∧
      ∀ byte ∈ bytes, Continues byte := by
  obtain ⟨first, bytes, encoded, dropped⟩ := drop_of_encoding char
  obtain ⟨same, _, _, _, kept, headed, continued, _⟩ := drop_code_point_some.mp (dropped [])
  rw [List.append_nil, List.append_nil] at kept
  subst kept
  refine ⟨first, bytes, encoded, ?_, (continue_code_point_iff.mp continued).1⟩
  unfold Continues
  rw [sequence_head_eq] at headed
  repeat' split at headed
  all_goals first | omega | cases headed

end Encodings

/-! The loop. -/

section Validation
variable {text : List UInt8} {first : UInt8} {rest : List UInt8}

theorem encode_cons (char : Char) (chars : List Char) :
    encodeUtf8 (char :: chars) = String.utf8EncodeChar char ++ encodeUtf8 chars := rfl

theorem encode_append (before after : List Char) :
    encodeUtf8 (before ++ after) = encodeUtf8 before ++ encodeUtf8 after := List.flatMap_append

/-- Text is well formed if a turn of the loop consumes some of it and leaves such text. -/
theorem well_formed_cons_iff : WellFormedUtf8 (first :: rest) ↔
    ∃ tail, dropCodePoint first rest = some tail ∧ WellFormedUtf8 tail := by
  constructor
  · rintro ⟨chars, same⟩
    cases chars with
    | nil => cases same
    | cons char chars =>
      obtain ⟨head, bytes, encoded, dropped⟩ := drop_of_encoding char
      rw [encode_cons, encoded] at same
      cases same
      exact ⟨encodeUtf8 chars, dropped _, chars, rfl⟩
  · rintro ⟨tail, dropped, chars, rfl⟩
    obtain ⟨char, same⟩ := encoding_of_drop dropped
    exact ⟨char :: chars, same⟩

/-- A turn of the loop leaves less. -/
theorem drop_shorter {tail : List UInt8} (dropped : dropCodePoint first rest = some tail) :
    tail.length ≤ rest.length := by
  obtain ⟨bytes, _, _, _, rfl, _⟩ := drop_code_point_some.mp dropped
  rw [List.length_append]
  omega

theorem valid_loop_iff (fuel : Nat) : ∀ {text : List UInt8}, text.length ≤ fuel →
    (isValidUtf8Loop fuel text = true ↔ WellFormedUtf8 text) := by
  induction fuel with
  | zero =>
    intro text short
    obtain rfl := List.length_eq_zero_iff.mp (Nat.le_zero.mp short)
    exact ⟨fun _ => ⟨[], rfl⟩, fun _ => rfl⟩
  | succ fuel ih =>
    intro text short
    cases text with
    | nil => exact ⟨fun _ => ⟨[], rfl⟩, fun _ => rfl⟩
    | cons first rest =>
      rw [well_formed_cons_iff, isValidUtf8Loop]
      rw [List.length_cons] at short
      cases dropped : dropCodePoint first rest with
      | none => simp
      | some tail =>
        have left := drop_shorter dropped
        simp only [ih (show tail.length ≤ fuel by omega), Option.some.injEq, exists_eq_left']

theorem valid_utf8_iff (text : List UInt8) : isValidUtf8 text = true ↔ WellFormedUtf8 text :=
  valid_loop_iff text.length le_rfl

/-! The same loop with indexes. -/

/-- The bytes of a sequence that is all there are read where they are. -/
theorem continue_at_eq (count : Nat) : ∀ {index codePoint : Nat},
    index + count ≤ text.length → continueAt text index count codePoint =
      some (continueCodePoint codePoint ((text.drop index).take count)) := by
  induction count with
  | zero =>
    intro index codePoint _
    rw [continueAt, List.take_zero, continueCodePoint]
  | succ count ih =>
    intro index codePoint within
    have here : index < text.length := by omega
    rw [List.drop_eq_getElem_cons here, List.take_succ_cons, continueAt, continueCodePoint,
      List.getElem?_eq_getElem here]
    simp only [Option.bind_eq_bind, Option.bind_some]
    split
    · rfl
    · exact ih (by omega)

/-- A turn reads nothing past the end and goes on where the text is left. -/
theorem validate_at_eq {index : Nat} (left : text.drop index = first :: rest) :
    ∃ next, validateAt text index = some next ∧
      next.map text.drop = dropCodePoint first rest ∧ ∀ last ∈ next, index < last := by
  have here : index < text.length := by
    by_contra outside
    rw [List.drop_eq_nil_of_le (by omega)] at left
    cases left
  have remaining : text.length - index = rest.length + 1 := by
    rw [← List.length_drop, left, List.length_cons]
  have after : text.drop (index + 1) = rest := by
    rw [← List.drop_drop, left, List.drop_one, List.tail_cons]
  have byte : text[index]? = some first := by
    rw [← List.head?_drop, left, List.head?_cons]
  unfold validateAt dropCodePoint
  rw [byte]
  simp only [Option.bind_eq_bind, Option.bind_some]
  cases headed : sequenceHead first with
  | none => exact ⟨none, rfl, rfl, nofun⟩
  | some head =>
    obtain ⟨length, leading, minimum⟩ := head
    have positive : 1 ≤ length := by
      rw [sequence_head_eq] at headed
      repeat' split at headed
      all_goals cases headed
      all_goals omega
    simp only [Option.bind_some, remaining]
    by_cases long : length > rest.length + 1
    · rw [if_pos long, if_pos long]
      exact ⟨none, rfl, rfl, nofun⟩
    · rw [if_neg long, if_neg long, continue_at_eq (length - 1) (by omega), after]
      simp only [Option.bind_some, Option.pure_def]
      cases continueCodePoint leading (rest.take (length - 1)) with
      | none => exact ⟨none, rfl, rfl, nofun⟩
      | some codePoint =>
        simp only [Option.bind_some]
        split
        · exact ⟨none, rfl, rfl, nofun⟩
        · refine ⟨some (index + length), rfl, ?_, fun last same => ?_⟩
          · rw [Option.map_some, ← after, List.drop_drop]
            congr 2
            omega
          · cases same
            omega

theorem validate_from_eq (fuel : Nat) : ∀ {index : Nat}, text.length - index ≤ fuel →
    validateFrom text fuel index = some (isValidUtf8Loop fuel (text.drop index)) := by
  induction fuel with
  | zero =>
    intro index short
    rw [validateFrom, if_neg (by omega), List.drop_eq_nil_of_le (by omega)]
    rfl
  | succ fuel ih =>
    intro index short
    rw [validateFrom]
    by_cases here : index < text.length
    · obtain ⟨first, rest, left⟩ := List.exists_cons_of_length_pos
        (show 0 < (text.drop index).length by rw [List.length_drop]; omega)
      obtain ⟨next, ran, dropped, later⟩ := validate_at_eq left
      rw [if_pos here, left, isValidUtf8Loop, ← dropped, ran]
      cases next with
      | none => rfl
      | some next =>
        have further := later next rfl
        exact ih (by omega)
    · rw [if_neg here, List.drop_eq_nil_of_le (by omega)]
      rfl

/-! Boundaries. -/

theorem is_boundary_iff {offset : Nat} : isBoundary text offset = true ↔
    offset ≤ text.length ∧ ∀ byte, text[offset]? = some byte → ¬Continues byte := by
  unfold isBoundary
  split
  case isTrue outside => exact ⟨nofun, fun held => absurd held.1 (by omega)⟩
  case isFalse inside =>
    cases text[offset]? with
    | none =>
      simp only [reduceCtorEq, false_implies, implies_true, and_true, true_iff]
      omega
    | some byte =>
      simp only [decide_eq_true_eq, ne_eq, continuation_byte, Option.some.injEq, forall_eq',
        Continues]
      omega

/-- The bytes that continue an encoding are no boundaries, and the rest of the text has its
own. -/
theorem boundary_of_is_boundary (chars : List Char) : ∀ {offset : Nat},
    isBoundary (encodeUtf8 chars) offset = true → EncodingBoundary (encodeUtf8 chars) offset := by
  induction chars with
  | nil =>
    intro offset boundary
    obtain ⟨within, _⟩ := is_boundary_iff.mp boundary
    exact ⟨[], [], rfl, Nat.le_zero.mp within⟩
  | cons char chars ih =>
    intro offset boundary
    obtain ⟨within, starts⟩ := is_boundary_iff.mp boundary
    obtain ⟨first, bytes, encoded, _, continues⟩ := encoding_bytes char
    rw [encode_cons] at within starts ⊢
    by_cases start : offset = 0
    · exact ⟨[], char :: chars, encode_cons char chars, start⟩
    · have beyond : (String.utf8EncodeChar char).length ≤ offset := by
        by_contra inside
        obtain ⟨index, rfl⟩ := Nat.exists_eq_succ_of_ne_zero start
        rw [encoded, List.length_cons] at inside
        have here : index < bytes.length := by omega
        refine starts bytes[index] ?_ (continues _ (List.getElem_mem here))
        rw [encoded, List.cons_append, List.getElem?_cons_succ,
          List.getElem?_append_left here, List.getElem?_eq_getElem here]
      obtain ⟨further, rfl⟩ := Nat.exists_eq_add_of_le beyond
      rw [List.length_append] at within
      have later : isBoundary (encodeUtf8 chars) further = true := by
        refine is_boundary_iff.mpr ⟨by omega, fun byte found => starts byte ?_⟩
        rw [List.getElem?_append_right (by omega), Nat.add_sub_cancel_left]
        exact found
      obtain ⟨before, after, same, rfl⟩ := ih later
      refine ⟨char :: before, after, ?_, ?_⟩
      · rw [List.cons_append, encode_cons, same]
      · rw [encode_cons, List.length_append]

theorem is_boundary_of_boundary {offset : Nat} (boundary : EncodingBoundary text offset) :
    isBoundary text offset = true := by
  obtain ⟨before, after, rfl, rfl⟩ := boundary
  rw [encode_append]
  refine is_boundary_iff.mpr ⟨by simp, fun byte found => ?_⟩
  rw [List.getElem?_append_right le_rfl, Nat.sub_self] at found
  cases after with
  | nil => cases found
  | cons char after =>
    obtain ⟨first, bytes, encoded, starts, _⟩ := encoding_bytes char
    rw [encode_cons, encoded] at found
    cases found
    exact starts

/-- A boundary cuts well-formed text in two. -/
theorem boundary_cuts {offset : Nat} (boundary : EncodingBoundary text offset) :
    WellFormedUtf8 (text.take offset) ∧ WellFormedUtf8 (text.drop offset) := by
  obtain ⟨before, after, rfl, rfl⟩ := boundary
  rw [encode_append, List.take_left, List.drop_left]
  exact ⟨⟨before, rfl⟩, after, rfl⟩

theorem is_boundary_drop {offset further : Nat}
    (boundary : isBoundary text (offset + further) = true) :
    isBoundary (text.drop offset) further = true := by
  obtain ⟨within, starts⟩ := is_boundary_iff.mp boundary
  refine is_boundary_iff.mpr ⟨?_, fun byte found => starts byte ?_⟩
  · rw [List.length_drop]
    omega
  · rw [← List.getElem?_drop]
    exact found

theorem valid_for_iff (range : TextRange) : range.validFor text = true ↔
    WellFormedUtf8 text ∧ range.start ≤ range.stop ∧ EncodingBoundary text range.start ∧
      EncodingBoundary text range.stop := by
  unfold TextRange.validFor
  rw [Bool.and_eq_true, Bool.and_eq_true, Bool.and_eq_true, decide_eq_true_eq, valid_utf8_iff,
    and_assoc]
  constructor
  · rintro ⟨⟨chars, rfl⟩, ordered, starts, stops⟩
    exact ⟨⟨chars, rfl⟩, ordered, boundary_of_is_boundary chars starts,
      boundary_of_is_boundary chars stops⟩
  · rintro ⟨formed, ordered, starts, stops⟩
    exact ⟨formed, ordered, is_boundary_of_boundary starts, is_boundary_of_boundary stops⟩

/-- A valid range cuts the text into three that are well formed. -/
theorem valid_range_cuts {range : TextRange} (valid : range.validFor text = true) :
    WellFormedUtf8 (text.take range.start) ∧
      WellFormedUtf8 ((text.drop range.start).take (range.stop - range.start)) ∧
      WellFormedUtf8 (text.drop range.stop) := by
  obtain ⟨_, ordered, starts, stops⟩ := (valid_for_iff range).mp valid
  obtain ⟨before, rest⟩ := boundary_cuts starts
  obtain ⟨chars, formed⟩ := rest
  have inside : isBoundary (text.drop range.start) (range.stop - range.start) = true := by
    apply is_boundary_drop
    rw [Nat.add_sub_cancel' ordered]
    exact is_boundary_of_boundary stops
  rw [formed] at inside ⊢
  exact ⟨before, (boundary_cuts (boundary_of_is_boundary chars inside)).1, (boundary_cuts stops).2⟩

/-- The validation accepts exactly the concatenations of encodings of scalar values, and reads
no byte past the end; a range is valid exactly between boundaries of such text. -/
theorem utf8_validation_exact (text : List UInt8) :
    (isValidUtf8 text = true ↔ ∃ chars : List Char, text = chars.flatMap String.utf8EncodeChar) ∧
    validateFrom text text.length 0 = some (isValidUtf8 text) ∧
    ∀ range : TextRange,
      (range.validFor text = true ↔ WellFormedUtf8 text ∧ range.start ≤ range.stop ∧
        EncodingBoundary text range.start ∧ EncodingBoundary text range.stop) ∧
      (range.validFor text = true → WellFormedUtf8 (text.take range.start) ∧
        WellFormedUtf8 ((text.drop range.start).take (range.stop - range.start)) ∧
        WellFormedUtf8 (text.drop range.stop)) :=
  ⟨valid_utf8_iff text, validate_from_eq text.length (Nat.sub_le ..), fun range =>
    ⟨valid_for_iff range, valid_range_cuts⟩⟩

end Validation

end Dui
