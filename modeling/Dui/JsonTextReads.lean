import Mathlib.Tactic.SplitIfs
import Dui.JsonText

/-!
# What the JSON and HTML encoders write

The encoder's recogniser of UTF-8 goes by ranges of bytes and `is_valid_utf8` by code
points; `valid_sequence_eq_drop` says that they agree on every text. From it every turn
of the encoder writes one character that a JSON reader reads back, and the whole
string reads as the scan of the bytes.
-/

namespace Dui

/-! ### The recogniser -/

/-- The second byte of a sequence is in the range its first byte leaves it. -/
def SecondFits (first second : UInt8) : Prop :=
  Continues second ∧ (first.toNat = 0xe0 → 0xa0 ≤ second.toNat) ∧
    (first.toNat = 0xed → second.toNat ≤ 0x9f) ∧ (first.toNat = 0xf0 → 0x90 ≤ second.toNat) ∧
    (first.toNat = 0xf4 → second.toNat ≤ 0x8f)

/-- The bytes after the first one of a sequence, by ranges. -/
inductive Trails (first : UInt8) : List UInt8 → Prop where
  | two {second : UInt8} (low : 0xc2 ≤ first.toNat) (high : first.toNat ≤ 0xdf)
      (continues : Continues second) : Trails first [second]
  | three {second third : UInt8} (low : 0xe0 ≤ first.toNat) (high : first.toNat ≤ 0xef)
      (fits : SecondFits first second) (also : Continues third) : Trails first [second, third]
  | four {second third fourth : UInt8} (low : 0xf0 ≤ first.toNat) (high : first.toNat ≤ 0xf4)
      (fits : SecondFits first second) (also : Continues third) (last : Continues fourth) :
      Trails first [second, third, fourth]

theorem announced_two {first : UInt8} (second : Option UInt8) (low : 0xc2 ≤ first.toNat)
    (high : first.toNat ≤ 0xdf) : announcedSequence first second = (2, true) := by
  unfold announcedSequence
  simp only [UInt8.le_iff_toNat_le, UInt8.reduceToNat]
  exact if_pos ⟨low, high⟩

theorem announced_three {first second : UInt8} (low : 0xe0 ≤ first.toNat)
    (high : first.toNat ≤ 0xef) :
    ∃ fits, announcedSequence first (some second) = (3, fits) ∧
      (fits = true ↔ SecondFits first second) := by
  unfold announcedSequence SecondFits Continues
  simp only [UInt8.le_iff_toNat_le, ← UInt8.toNat_inj, UInt8.reduceToNat]
  rw [if_neg (by omega), if_pos ⟨low, high⟩]
  refine ⟨_, rfl, ?_⟩
  split_ifs <;> rw [decide_eq_true_iff] <;> omega

theorem announced_four {first second : UInt8} (low : 0xf0 ≤ first.toNat)
    (high : first.toNat ≤ 0xf4) :
    ∃ fits, announcedSequence first (some second) = (4, fits) ∧
      (fits = true ↔ SecondFits first second) := by
  unfold announcedSequence SecondFits Continues
  simp only [UInt8.le_iff_toNat_le, ← UInt8.toNat_inj, UInt8.reduceToNat]
  rw [if_neg (by omega), if_neg (by omega), if_pos ⟨low, high⟩]
  refine ⟨_, rfl, ?_⟩
  split_ifs <;> rw [decide_eq_true_iff] <;> omega

/-- Every other byte announces no sequence. -/
theorem announced_cases {first : UInt8} {second : Option UInt8} {length : Nat} {fits : Bool}
    (announced : announcedSequence first second = (length, fits)) (nonzero : length ≠ 0) :
    (length = 2 ∧ 0xc2 ≤ first.toNat ∧ first.toNat ≤ 0xdf) ∨
      (length = 3 ∧ 0xe0 ≤ first.toNat ∧ first.toNat ≤ 0xef) ∨
      (length = 4 ∧ 0xf0 ≤ first.toNat ∧ first.toNat ≤ 0xf4) := by
  unfold announcedSequence at announced
  simp only [UInt8.le_iff_toNat_le, UInt8.reduceToNat] at announced
  split at announced
  · cases announced
    exact .inl ⟨rfl, ‹_›⟩
  split at announced
  · cases announced
    exact .inr (.inl ⟨rfl, ‹_›⟩)
  split at announced
  · cases announced
    exact .inr (.inr ⟨rfl, ‹_›⟩)
  · cases announced
    exact absurd rfl nonzero

theorem continues_all (bytes : List UInt8) :
    bytes.all (fun byte => 0x80 ≤ byte ∧ byte ≤ 0xbf) = true ↔ ∀ byte ∈ bytes, Continues byte := by
  simp only [List.all_eq_true, decide_eq_true_eq, UInt8.le_iff_toNat_le, UInt8.reduceToNat,
    Continues, Nat.lt_succ_iff]

theorem valid_sequence_spec (first : UInt8) (rest : List UInt8) (length : Nat) :
    validSequence first rest = some length ↔
      announcedSequence first rest.head? = (length, true) ∧ length ≠ 0 ∧
        length ≤ rest.length + 1 ∧ ∀ byte ∈ rest.take (length - 1), Continues byte := by
  unfold validSequence
  generalize announcedSequence first rest.head? = announced
  obtain ⟨announced, fits⟩ := announced
  simp only [continues_all, Option.ite_none_right_eq_some, Option.some.injEq, Prod.mk.injEq]
  constructor
  · rintro ⟨⟨nonzero, within, fits, continues⟩, rfl⟩
    exact ⟨⟨rfl, fits⟩, nonzero, within, continues⟩
  · rintro ⟨⟨rfl, fits⟩, nonzero, within, continues⟩
    exact ⟨⟨nonzero, within, fits, continues⟩, rfl⟩

/-- The encoder takes exactly the sequences whose bytes are in these ranges. -/
theorem valid_sequence_iff {first : UInt8} {rest : List UInt8} {length : Nat} :
    validSequence first rest = some length ↔
      ∃ bytes tail, rest = bytes ++ tail ∧ length = bytes.length + 1 ∧ Trails first bytes := by
  rw [valid_sequence_spec]
  constructor
  · rintro ⟨announced, nonzero, within, continues⟩
    obtain ⟨rfl, low, high⟩ | ⟨rfl, low, high⟩ | ⟨rfl, low, high⟩ :=
      announced_cases announced nonzero
    · obtain ⟨second, rest, rfl⟩ := List.exists_cons_of_length_pos (l := rest) (by omega)
      exact ⟨[second], rest, rfl, rfl, .two low high (continues second (by simp))⟩
    · match rest, within with
      | second :: third :: rest, _ =>
        obtain ⟨fits, same, iff⟩ := announced_three low high
        have fits := iff.mp (Prod.mk.inj (same.symm.trans announced)).2
        exact ⟨[second, third], rest, rfl, rfl, .three low high fits (continues third (by simp))⟩
    · match rest, within with
      | second :: third :: fourth :: rest, _ =>
        obtain ⟨fits, same, iff⟩ := announced_four low high
        have fits := iff.mp (Prod.mk.inj (same.symm.trans announced)).2
        exact ⟨[second, third, fourth], rest, rfl, rfl,
          .four low high fits (continues third (by simp)) (continues fourth (by simp))⟩
  · rintro ⟨bytes, tail, rfl, rfl, trails⟩
    cases trails with
    | two low high continues =>
      exact ⟨announced_two _ low high, by simp, by simp, by simpa using continues⟩
    | three low high fits also =>
      obtain ⟨same, announced, iff⟩ := announced_three low high
      obtain rfl := iff.mpr fits
      exact ⟨announced, by simp, by simp, by simpa using ⟨fits.1, also⟩⟩
    | four low high fits also last =>
      obtain ⟨same, announced, iff⟩ := announced_four low high
      obtain rfl := iff.mpr fits
      exact ⟨announced, by simp, by simp, by simpa using ⟨fits.1, also, last⟩⟩

/-- The ranges are those of `is_valid_utf8`, which goes by code points. -/
theorem drop_of_trails {first : UInt8} {bytes : List UInt8} (trails : Trails first bytes)
    (tail : List UInt8) : dropCodePoint first (bytes ++ tail) = some tail := by
  rw [drop_code_point_some]
  cases trails with
  | @two second low high continues =>
    refine ⟨[second], first.toNat % 32, 0x80, _, rfl, ?_,
      continue_code_point_iff.mpr ⟨by simpa using continues, rfl⟩, ?_⟩
    · rw [sequence_head_eq, if_neg (by omega), if_pos (by omega)]
      rfl
    · unfold Continues at continues
      simp only [List.foldl_cons, List.foldl_nil]
      omega
  | @three second third low high fits also =>
    obtain ⟨own, fits⟩ := fits
    refine ⟨[second, third], first.toNat % 16, 0x800, _, rfl, ?_,
      continue_code_point_iff.mpr ⟨by simpa using ⟨own, also⟩, rfl⟩, ?_⟩
    · rw [sequence_head_eq, if_neg (by omega), if_neg (by omega), if_pos (by omega)]
      rfl
    · unfold Continues at own also
      simp only [List.foldl_cons, List.foldl_nil]
      omega
  | @four second third fourth low high fits also last =>
    obtain ⟨own, fits⟩ := fits
    refine ⟨[second, third, fourth], first.toNat % 8, 0x10000, _, rfl, ?_,
      continue_code_point_iff.mpr ⟨by simpa using ⟨own, also, last⟩, rfl⟩, ?_⟩
    · rw [sequence_head_eq, if_neg (by omega), if_neg (by omega), if_neg (by omega),
        if_pos (by omega)]
      rfl
    · unfold Continues at own also last
      simp only [List.foldl_cons, List.foldl_nil]
      omega

theorem follows_of_drop {first : UInt8} {rest tail : List UInt8} (high : 0x80 ≤ first.toNat)
    (dropped : dropCodePoint first rest = some tail) :
    ∃ bytes, rest = bytes ++ tail ∧ Trails first bytes := by
  obtain ⟨bytes, leading, minimum, codePoint, rfl, headed, continued, enough, legal⟩ :=
    drop_code_point_some.mp dropped
  obtain ⟨continues, result⟩ := continue_code_point_iff.mp continued
  refine ⟨bytes, rfl, ?_⟩
  rw [sequence_head_eq, if_neg (by omega)] at headed
  split_ifs at headed with two three four
  · simp only [Option.some.injEq, Prod.mk.injEq] at headed
    obtain ⟨length, rfl, rfl⟩ := headed
    obtain ⟨second, rfl⟩ := List.length_eq_one_iff.mp (show bytes.length = 1 by omega)
    have own := continues second (by simp)
    simp only [List.foldl_cons, List.foldl_nil] at result
    have range := own
    unfold Continues at range
    exact .two (by omega) (by omega) own
  · simp only [Option.some.injEq, Prod.mk.injEq] at headed
    obtain ⟨length, rfl, rfl⟩ := headed
    obtain ⟨second, third, rfl⟩ := List.length_eq_two.mp (show bytes.length = 2 by omega)
    have own := continues second (by simp)
    have also := continues third (by simp)
    simp only [List.foldl_cons, List.foldl_nil] at result
    have range := own
    have range' := also
    unfold Continues at range range'
    exact .three (by omega) (by omega) ⟨own, by omega⟩ also
  · simp only [Option.some.injEq, Prod.mk.injEq] at headed
    obtain ⟨length, rfl, rfl⟩ := headed
    obtain ⟨second, third, fourth, rfl⟩ :=
      List.length_eq_three.mp (show bytes.length = 3 by omega)
    have own := continues second (by simp)
    have also := continues third (by simp)
    have last := continues fourth (by simp)
    simp only [List.foldl_cons, List.foldl_nil] at result
    have range := own
    have range' := also
    have range'' := last
    unfold Continues at range range' range''
    exact .four (by omega) (by omega) ⟨own, by omega⟩ also last

/-- The encoder's recogniser agrees with that of `is_valid_utf8`, on every text. -/
theorem valid_sequence_eq_drop {first : UInt8} (high : 0x80 ≤ first.toNat) (rest : List UInt8) :
    (validSequence first rest).map (fun length => rest.drop (length - 1)) =
      dropCodePoint first rest := by
  apply Option.ext
  intro tail
  rw [Option.map_eq_some_iff]
  constructor
  · rintro ⟨length, valid, rfl⟩
    obtain ⟨bytes, tail, rfl, rfl, trails⟩ := valid_sequence_iff.mp valid
    rw [Nat.add_sub_cancel, List.drop_left]
    exact drop_of_trails trails tail
  · intro dropped
    obtain ⟨bytes, rfl, trails⟩ := follows_of_drop high dropped
    refine ⟨bytes.length + 1, valid_sequence_iff.mpr ⟨bytes, tail, rfl, rfl, trails⟩, ?_⟩
    rw [Nat.add_sub_cancel, List.drop_left]

/-! ### ASCII -/

/-- The character of a byte below `0x80`. -/
def asciiChar (byte : UInt8) : Char := Char.ofNat byte.toNat

theorem ascii_char_value {byte : UInt8} (low : byte.toNat < 0x80) :
    (asciiChar byte).val.toNat = byte.toNat := by
  have legal : byte.toNat.isValidChar := by
    unfold Nat.isValidChar
    omega
  unfold asciiChar Char.ofNat
  rw [dif_pos legal]
  rfl

theorem encode_ascii_char {byte : UInt8} (low : byte.toNat < 0x80) :
    String.utf8EncodeChar (asciiChar byte) = [byte] := by
  have value := ascii_char_value low
  rw [encode_one (by omega), value, UInt8.ofNat_toNat]

theorem encode_ascii {bytes : List UInt8} (low : ∀ byte ∈ bytes, byte.toNat < 0x80) :
    encodeUtf8 (bytes.map asciiChar) = bytes := by
  induction bytes with
  | nil => rfl
  | cons byte rest ih =>
    rw [List.map_cons, encode_cons, encode_ascii_char (low byte List.mem_cons_self),
      ih fun other member => low other (List.mem_cons_of_mem _ member)]
    rfl

theorem escape_character_low {character : UInt8} (low : character.toNat < 0x80) :
    ∀ byte ∈ escapeCharacter character, byte.toNat < 0x80 := by
  have all : ∀ character : UInt8, character.toNat < 0x80 →
      (escapeCharacter character).all (fun byte => byte.toNat < 0x80) = true := by
    apply byte_all
    decide +kernel
  intro byte member
  exact of_decide_eq_true (List.all_eq_true.mp (all character low) byte member)

/-- A character that a JSON string holds as it is. -/
theorem json_character_plain {char : Char} (printable : 0x20 ≤ char.toNat)
    (notQuote : char ≠ quote) (notBackslash : char ≠ backslash) (more : List Char) :
    jsonCharacter (char :: more) = some (char, more) := by
  unfold jsonCharacter
  dsimp only
  rw [if_neg, if_pos notBackslash]
  rintro (same | control)
  · exact notQuote same
  · omega

theorem hex_digit_value {value : Nat} (small : value < 16) :
    hexValue (asciiChar (hexDigit value)) = some value := by
  have all : ∀ value < 16, hexValue (asciiChar (hexDigit value)) = some value := by decide
  exact all value small

theorem json_character_control {character : UInt8} (control : character.toNat < 0x20)
    (more : List Char) :
    jsonCharacter ((ascii "\\u00" ++ [hexDigit (character.toNat / 16),
        hexDigit (character.toNat % 16)]).map asciiChar ++ more) =
      some (asciiChar character, more) := by
  have high := hex_digit_value (show character.toNat / 16 < 16 by omega)
  have low := hex_digit_value (show character.toNat % 16 < 16 by omega)
  have zero : hexValue (asciiChar 0x30) = some 0 := by decide
  have unit : codeUnit (asciiChar 0x30 :: asciiChar 0x30 ::
      asciiChar (hexDigit (character.toNat / 16)) :: asciiChar (hexDigit (character.toNat % 16)) ::
        more) = some (character.toNat, more) := by
    simp only [codeUnit, zero, high, low, Option.bind_eq_bind, Option.bind_some]
    congr 2
    omega
  have escape : unicodeEscape (asciiChar 0x30 :: asciiChar 0x30 ::
      asciiChar (hexDigit (character.toNat / 16)) :: asciiChar (hexDigit (character.toNat % 16)) ::
        more) = some (asciiChar character, more) := by
    unfold unicodeEscape
    rw [unit, Option.bind_eq_bind, Option.bind_some]
    dsimp only
    rw [if_pos (by omega)]
    rfl
  exact escape

/-- What stands for a character below `0x80` is read as that character. -/
theorem json_character_escaped {character : UInt8} (low : character.toNat < 0x80)
    (more : List Char) :
    jsonCharacter ((escapeCharacter character).map asciiChar ++ more) =
      some (asciiChar character, more) := by
  unfold escapeCharacter
  split_ifs with c1 c2 c3 c4 c5 c6 c7 control
  · subst c1
    rfl
  · subst c2
    rfl
  · subst c3
    rfl
  · subst c4
    rfl
  · subst c5
    rfl
  · subst c6
    rfl
  · subst c7
    rfl
  · rw [UInt8.lt_iff_toNat_lt] at control
    exact json_character_control control more
  · have value : (asciiChar character).toNat = character.toNat := ascii_char_value low
    rw [UInt8.lt_iff_toNat_lt] at control
    apply json_character_plain
    · have bound : (0x20 : UInt8).toNat = 0x20 := rfl
      omega
    · intro same
      apply c1
      apply UInt8.toNat_inj.mp
      rw [← value, same]
      rfl
    · intro same
      apply c2
      apply UInt8.toNat_inj.mp
      rw [← value, same]
      rfl

/-! ### The string -/

/-- A turn writes one character, which is read back, and goes on after the bytes it
stands for. -/
structure TurnReads (text : List UInt8) (turn : List UInt8 × List UInt8) (literal : List Char)
    (char : Char) : Prop where
  written : turn.1 = encodeUtf8 literal
  nonempty : literal ≠ []
  reads : ∀ more, jsonCharacter (literal ++ more) = some (char, more)
  scans : ∀ chars, Scans turn.2 chars → Scans text (char :: chars)
  shorter : turn.2.length < text.length

/-- The escape that is written for a byte outside every encoding. -/
theorem replacement_reads (more : List Char) :
    jsonCharacter ((ascii "\\ufffd").map asciiChar ++ more) = some (replacement, more) := rfl

/-- The encoding of a character from `0x80` on begins with such a byte. -/
theorem encoding_high {char : Char} {first : UInt8} {rest tail : List UInt8}
    (encoded : first :: rest = String.utf8EncodeChar char ++ tail) (high : 0x80 ≤ first.toNat) :
    0x80 ≤ char.toNat := by
  by_contra low
  have small : char.val.toNat ≤ 0x7f := by
    have same : char.val.toNat = char.toNat := rfl
    omega
  rw [encode_one small] at encoded
  obtain ⟨rfl, _⟩ := List.cons.inj encoded
  have value := byte_value char.val.toNat (by omega)
  omega

theorem json_turn_reads (first : UInt8) (rest : List UInt8) :
    ∃ literal char, TurnReads (first :: rest) (jsonTurn first rest) literal char := by
  unfold jsonTurn
  have bound : (0x80 : UInt8).toNat = 0x80 := rfl
  by_cases high : 0x80 ≤ first
  · rw [if_pos high]
    rw [UInt8.le_iff_toNat_le, bound] at high
    have agree := valid_sequence_eq_drop high rest
    cases valid : validSequence first rest with
    | none =>
      rw [valid, Option.map_none] at agree
      refine ⟨(ascii "\\ufffd").map asciiChar, replacement, rfl, by decide, replacement_reads,
        ?_, ?_⟩
      · intro chars scans
        refine .malformed ?_ scans
        intro char tail encoded
        obtain ⟨head, bytes, split, dropped⟩ := drop_of_encoding char
        rw [split, List.cons_append] at encoded
        obtain ⟨rfl, rfl⟩ := List.cons.inj encoded
        rw [dropped tail] at agree
        cases agree
      · simp
    | some length =>
      rw [valid, Option.map_some] at agree
      obtain ⟨char, encoded⟩ := encoding_of_drop agree.symm
      have above := encoding_high encoded high
      refine ⟨[char], char, ?_, by simp, ?_, ?_, ?_⟩
      · have parts : (first :: rest.take (length - 1)) ++ rest.drop (length - 1) =
            String.utf8EncodeChar char ++ rest.drop (length - 1) := by
          rw [← encoded, List.cons_append, List.take_append_drop]
        have same := List.append_cancel_right parts
        exact same.trans (List.append_nil _).symm
      · intro more
        apply json_character_plain (by omega)
        · rintro rfl
          exact absurd above (by decide)
        · rintro rfl
          exact absurd above (by decide)
      · intro chars scans
        dsimp only at scans
        rw [encoded]
        exact .encoding char scans
      · simp only [List.length_drop, List.length_cons]
        omega
  · rw [if_neg high]
    rw [UInt8.le_iff_toNat_le, bound] at high
    have low : first.toNat < 0x80 := by omega
    refine ⟨(escapeCharacter first).map asciiChar, asciiChar first, ?_, ?_,
      json_character_escaped low, ?_, by simp⟩
    · exact (encode_ascii (escape_character_low low)).symm
    · intro empty
      have nothing := json_character_escaped low []
      rw [empty] at nothing
      cases nothing
    · intro chars scans
      have encoded : first :: rest = String.utf8EncodeChar (asciiChar first) ++ rest := by
        rw [encode_ascii_char low]
        rfl
      rw [encoded]
      exact .encoding _ scans

theorem json_turns_read (fuel : Nat) : ∀ {text : List UInt8}, text.length ≤ fuel →
    ∃ literal decoded, jsonTurns fuel text = encodeUtf8 literal ∧ Scans text decoded ∧
      ∀ count, literal.length < count →
        jsonCharacters count (literal ++ [quote]) = some decoded := by
  induction fuel with
  | zero =>
    intro text short
    obtain rfl := List.length_eq_zero_iff.mp (Nat.le_zero.mp short)
    refine ⟨[], [], rfl, .nil, ?_⟩
    rintro (_ | count) enough
    · simp at enough
    · rfl
  | succ fuel ih =>
    intro text short
    cases text with
    | nil =>
      refine ⟨[], [], rfl, .nil, ?_⟩
      rintro (_ | count) enough
      · simp at enough
      · rfl
    | cons first rest =>
      obtain ⟨own, char, turn⟩ := json_turn_reads first rest
      have shorter : (jsonTurn first rest).2.length ≤ fuel := by
        have shorter := turn.shorter
        omega
      obtain ⟨literal, decoded, written, scans, reads⟩ := ih shorter
      refine ⟨own ++ literal, char :: decoded, ?_, turn.scans decoded scans, ?_⟩
      · have unfolded : jsonTurns (fuel + 1) (first :: rest) =
            (jsonTurn first rest).1 ++ jsonTurns fuel (jsonTurn first rest).2 := rfl
        rw [unfolded, turn.written, written, encode_append]
      · rintro (_ | count) enough
        · simp at enough
        have positive := List.length_pos_of_ne_nil turn.nonempty
        rw [List.length_append] at enough
        have unfinished : (own ++ literal) ++ [quote] ≠ [quote] := by
          intro closed
          have length := congrArg List.length closed
          simp only [List.length_append, List.length_singleton] at length
          omega
        rw [jsonCharacters, if_neg unfinished, List.append_assoc, turn.reads, Option.bind_eq_bind,
          Option.bind_some]
        dsimp only
        rw [reads count (by omega)]
        rfl


/-! ### Reading a text, in one way -/

/-- No encoding begins another, so what a text starts with is determined. -/
theorem encoding_unique {char other : Char} {tail rest : List UInt8}
    (same : String.utf8EncodeChar char ++ tail = String.utf8EncodeChar other ++ rest) :
    char = other ∧ tail = rest := by
  have decoded (char : Char) (tail : List UInt8) :
      ByteArray.utf8DecodeChar? (String.utf8EncodeChar char ++ tail).toByteArray 0 = some char := by
    rw [List.toByteArray_append]
    exact ByteArray.utf8DecodeChar?_utf8EncodeChar_append
  have first := decoded char tail
  rw [same, decoded other rest] at first
  obtain rfl := Option.some.inj first
  exact ⟨rfl, List.append_cancel_left same⟩

theorem Scans.unique {text : List UInt8} {chars others : List Char} (scans : Scans text chars)
    (also : Scans text others) : chars = others := by
  induction scans generalizing others with
  | nil =>
    generalize empty : ([] : List UInt8) = text at also
    cases also with
    | nil => rfl
    | encoding char scans =>
      obtain ⟨first, bytes, encoded, _⟩ := encoding_bytes char
      rw [encoded] at empty
      cases empty
    | malformed none scans => cases empty
  | @encoding char rest chars scans ih =>
    generalize same : String.utf8EncodeChar char ++ rest = text at also
    cases also with
    | nil =>
      obtain ⟨first, bytes, encoded, _⟩ := encoding_bytes char
      rw [encoded] at same
      cases same
    | encoding other scans =>
      obtain ⟨rfl, rfl⟩ := encoding_unique same
      rw [ih scans]
    | malformed none scans => exact absurd same.symm (none char rest)
  | @malformed byte rest chars none scans ih =>
    generalize same : byte :: rest = text at also
    cases also with
    | nil => cases same
    | encoding char scans => exact absurd same (none char _)
    | malformed none scans =>
      obtain ⟨rfl, rfl⟩ := List.cons.inj same
      rw [ih scans]

/-- Well-formed text is scanned into its characters. -/
theorem scans_encode (chars : List Char) : Scans (encodeUtf8 chars) chars := by
  induction chars with
  | nil => exact .nil
  | cons char chars ih => exact .encoding char ih

/-- The string that is written is a JSON string, well formed, and reads as the scan of
the bytes; so it gives the bytes back exactly if they are valid. -/
theorem json_string_reads (value : List UInt8) :
    ∃ literal decoded, appendJsonString value = encodeUtf8 literal ∧
      readJsonString literal = some decoded ∧ Scans value decoded ∧
      (encodeUtf8 decoded = value ↔ isValidUtf8 value = true) := by
  obtain ⟨literal, decoded, written, scans, reads⟩ := json_turns_read value.length le_rfl
  refine ⟨quote :: literal ++ [quote], decoded, ?_, ?_, scans, ?_⟩
  · unfold appendJsonString
    rw [written, encode_append]
    rfl
  · have opened : readJsonString (quote :: literal ++ [quote]) =
        jsonCharacters ((literal ++ [quote]).length + 1) (literal ++ [quote]) := rfl
    rw [opened]
    apply reads
    rw [List.length_append]
    omega
  · rw [valid_utf8_iff]
    constructor
    · intro same
      exact ⟨decoded, same.symm⟩
    · rintro ⟨chars, rfl⟩
      rw [scans.unique (scans_encode chars)]


/-! ### The literal in HTML -/

theorem escape_html_markup (character : UInt8) :
    ∀ byte ∈ escapeHtml character, byte ∉ markup := by
  have reference (text : List UInt8) (clean : text.all (fun byte => byte ∉ markup) = true) :
      ∀ byte ∈ text, byte ∉ markup :=
    fun byte member => of_decide_eq_true (List.all_eq_true.mp clean byte member)
  unfold escapeHtml
  split_ifs with ampersand less greater quote apostrophe
  · exact reference _ (by decide)
  · exact reference _ (by decide)
  · exact reference _ (by decide)
  · exact reference _ (by decide)
  · exact reference _ (by decide)
  · intro byte member
    rw [List.mem_singleton.mp member]
    simp [markup, less, greater, quote, apostrophe]

/-- An escaped byte is read as that byte. -/
theorem read_html_escaped (character : UInt8) (fuel : Nat) (more : List UInt8) :
    readHtmlText (fuel + 1) (escapeHtml character ++ more) =
      (readHtmlText fuel more).map (character :: ·) := by
  unfold escapeHtml
  split_ifs with c1 c2 c3 c4 c5
  · subst c1
    rfl
  · subst c2
    rfl
  · subst c3
    rfl
  · subst c4
    rfl
  · subst c5
    rfl
  · have plain : character ∉ markup := by simp [markup, c2, c3, c4, c5]
    rw [List.singleton_append, readHtmlText, if_neg c1, if_neg plain]

theorem read_html_all (bytes : List UInt8) : ∀ fuel, bytes.length ≤ fuel →
    readHtmlText fuel (bytes.flatMap escapeHtml) = some bytes := by
  induction bytes with
  | nil =>
    intro fuel _
    cases fuel <;> rfl
  | cons byte rest ih =>
    rintro (_ | fuel) enough
    · simp at enough
    · rw [List.flatMap_cons, read_html_escaped, ih fuel (by simpa using enough)]
      rfl

theorem escape_html_longer (bytes : List UInt8) :
    bytes.length ≤ (bytes.flatMap escapeHtml).length := by
  have nonempty (character : UInt8) : 1 ≤ (escapeHtml character).length := by
    unfold escapeHtml
    split_ifs <;> exact Nat.succ_le_succ (Nat.zero_le _)
  induction bytes with
  | nil => rfl
  | cons byte rest ih =>
    have positive := nonempty byte
    rw [List.flatMap_cons, List.length_append, List.length_cons]
    omega

/-- The literal holds no markup, every ampersand in it is one of a reference, and it
reads as the JSON string. -/
theorem html_literal_reads (value : List UInt8) :
    (∀ byte ∈ appendHtmlLiteral value, byte ∉ markup) ∧
      readHtmlText (appendHtmlLiteral value).length (appendHtmlLiteral value) =
        some (appendJsonString value) := by
  constructor
  · intro byte member
    obtain ⟨character, _, escaped⟩ := List.mem_flatMap.mp member
    exact escape_html_markup character byte escaped
  · exact read_html_all _ _ (escape_html_longer _)

/-- Every text becomes a JSON string, and an HTML literal of it. -/
theorem text_encoding_exact (value : List UInt8) :
    (∃ literal decoded, appendJsonString value = encodeUtf8 literal ∧
      readJsonString literal = some decoded ∧ Scans value decoded ∧
      (encodeUtf8 decoded = value ↔ isValidUtf8 value = true)) ∧
    (∀ byte ∈ appendHtmlLiteral value, byte ∉ markup) ∧
    readHtmlText (appendHtmlLiteral value).length (appendHtmlLiteral value) =
      some (appendJsonString value) :=
  ⟨json_string_reads value, html_literal_reads value⟩

end Dui
