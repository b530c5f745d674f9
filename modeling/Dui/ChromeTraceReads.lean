import Mathlib.Algebra.Order.Field.Rat
import Mathlib.Tactic.NormNum
import Dui.ChromeTrace
import Dui.JsonTextReads

/-!
# Reading a Chrome trace

A reader of JSON tokens with exact numbers. A text that is put together of pieces is
read as their tokens; the digits of a count are read as its value, and those of a time
as the exact quotient.
-/

namespace Dui

/-! ### The reader -/

inductive JsonToken where
  | mark (byte : UInt8)
  | string (bytes : List UInt8)
  | number (value : ℚ)
  deriving DecidableEq

/-- The bytes that are tokens of their own. -/
def jsonMarks : List UInt8 := [0x7b, 0x7d, 0x5b, 0x5d, 0x3a, 0x2c]

/-- A byte that stands for itself in a string. -/
def PlainByte (byte : UInt8) : Prop :=
  0x20 ≤ byte.toNat ∧ byte.toNat < 0x80 ∧ byte ≠ 0x22 ∧ byte ≠ 0x5c

instance (byte : UInt8) : Decidable (PlainByte byte) := inferInstanceAs (Decidable (_ ∧ _))

def isDigit (byte : UInt8) : Bool := 0x30 ≤ byte.toNat ∧ byte.toNat ≤ 0x39

/-- The number that digits stand for. -/
def digitsValue (digits : List UInt8) : Nat :=
  digits.foldl (fun value digit => value * 10 + (digit.toNat - 0x30)) 0

/-- The bytes up to a quote, all of them plain. -/
def lexString (text : List UInt8) : Option (JsonToken × List UInt8) :=
  let bytes := text.takeWhile fun byte => PlainByte byte
  match text.dropWhile fun byte => PlainByte byte with
  | 0x22 :: rest => some (.string bytes, rest)
  | _ => none

/-- Digits without a leading zero, and a fraction. -/
def lexNumber (text : List UInt8) : Option (JsonToken × List UInt8) :=
  let whole := text.takeWhile isDigit
  if whole = [] ∨ (whole.head? = some 0x30 ∧ whole ≠ [0x30]) then none
  else
    match text.dropWhile isDigit with
    | 0x2e :: rest =>
      let fraction := rest.takeWhile isDigit
      if fraction = [] then none
      else
        some (.number (digitsValue whole + digitsValue fraction / 10 ^ fraction.length),
          rest.dropWhile isDigit)
    | rest => some (.number (digitsValue whole), rest)

def lexToken : List UInt8 → Option (JsonToken × List UInt8)
  | [] => none
  | byte :: rest =>
    if byte ∈ jsonMarks then some (.mark byte, rest)
    else if byte = 0x22 then lexString rest
    else lexNumber (byte :: rest)

/-- The tokens of a text. -/
def lexJson : Nat → List UInt8 → Option (List JsonToken)
  | _, [] => some []
  | 0, _ :: _ => none
  | fuel + 1, text => do
    let (token, rest) ← lexToken text
    let tokens ← lexJson fuel rest
    some (token :: tokens)

/-- The value of hexadecimal digits after `0x`. -/
def readHexadecimal : List UInt8 → Option Nat
  | 0x30 :: 0x78 :: digits =>
    if digits = [] then none
    else digits.foldlM (fun value digit => do
      let digit ← hexValue (asciiChar digit)
      some (value * 16 + digit)) 0
  | _ => none

/-! ### Digits -/

theorem digits_run {holds : UInt8 → Bool} {front more : List UInt8}
    (all : ∀ byte ∈ front, holds byte = true) (stop : ∀ byte ∈ more.head?, holds byte = false) :
    (front ++ more).takeWhile holds = front ∧ (front ++ more).dropWhile holds = more := by
  rw [List.takeWhile_append_of_pos all, List.dropWhile_append_of_pos all]
  cases more with
  | nil => simp
  | cons byte rest =>
    have stopped := stop byte rfl
    simp [stopped]

theorem digits_value_append (front : List UInt8) (digit : UInt8) :
    digitsValue (front ++ [digit]) = digitsValue front * 10 + (digit.toNat - 0x30) := by
  unfold digitsValue
  rw [List.foldl_append]
  rfl

theorem decimal_small {value : Nat} (small : value < 10) :
    decimal value = [UInt8.ofNat (0x30 + value)] := by
  have all : ∀ value < 10, decimal value = [UInt8.ofNat (0x30 + value)] := by decide
  exact all value small

theorem decimal_large {value : Nat} (large : 10 ≤ value) :
    decimal value = decimal (value / 10) ++ [UInt8.ofNat (0x30 + value % 10)] := by
  unfold decimal
  rw [Nat.toDigits_of_base_le (by decide) large, List.map_append]
  have last := decimal_small (Nat.mod_lt value (by decide : 0 < 10))
  unfold decimal at last
  rw [Nat.toDigits_of_lt_base (Nat.mod_lt value (by decide))] at last
  rw [List.map_singleton] at last ⊢
  rw [last]

/-- What the digits of a number are. -/
structure Decimal (value : Nat) (digits : List UInt8) : Prop where
  all : ∀ digit ∈ digits, isDigit digit = true
  value : digitsValue digits = value
  nonempty : digits ≠ []
  leading : digits.head? = some 0x30 → digits = [0x30]

theorem decimal_spec (value : Nat) : Decimal value (decimal value) := by
  induction value using Nat.strongRecOn with
  | ind value ih =>
    by_cases small : value < 10
    · rw [decimal_small small]
      have all : ∀ value < 10, isDigit (UInt8.ofNat (0x30 + value)) = true ∧
          digitsValue [UInt8.ofNat (0x30 + value)] = value := by decide
      obtain ⟨digit, same⟩ := all value small
      refine ⟨by simpa using digit, same, by simp, ?_⟩
      intro zero
      rw [Option.some.inj zero]
    · have large : 10 ≤ value := not_lt.mp small
      obtain ⟨all, same, nonempty, leading⟩ := ih (value / 10) (by omega)
      have digit : ∀ value < 10, isDigit (UInt8.ofNat (0x30 + value)) = true ∧
          (UInt8.ofNat (0x30 + value)).toNat - 0x30 = value := by decide
      obtain ⟨last, own⟩ := digit (value % 10) (Nat.mod_lt value (by decide))
      rw [decimal_large large]
      refine ⟨?_, ?_, by simp, ?_⟩
      · intro other member
        obtain front | only := List.mem_append.mp member
        · exact all other front
        · rw [List.mem_singleton.mp only]
          exact last
      · rw [digits_value_append, same, own]
        omega
      · intro zero
        rw [List.head?_append_of_ne_nil _ nonempty] at zero
        rw [leading zero] at same
        have none : value / 10 = 0 := same.symm
        omega

/-! ### Pieces of a text -/

/-- A piece of a text and the token it is. -/
inductive JsonPiece where
  | mark (byte : UInt8)
  | string (bytes : List UInt8)
  | number (text : List UInt8) (value : ℚ)

namespace JsonPiece

def text : JsonPiece → List UInt8
  | mark byte => [byte]
  | string bytes => 0x22 :: bytes ++ [0x22]
  | number text _ => text

def token : JsonPiece → JsonToken
  | mark byte => .mark byte
  | string bytes => .string bytes
  | number _ value => .number value

end JsonPiece

/-- The text of a number is read as its value, wherever a mark or the end follows. -/
def ReadsNumber (text : List UInt8) (value : ℚ) : Prop :=
  text ≠ [] ∧ ∀ more : List UInt8, (∀ byte ∈ more.head?, byte ∈ jsonMarks) →
    lexToken (text ++ more) = some (.number value, more)

/-- The pieces start with a mark, if there are any. -/
def LedByMark (pieces : List JsonPiece) : Prop :=
  ∀ piece ∈ pieces.head?, ∃ byte ∈ jsonMarks, piece = .mark byte

/-- Every piece is read as its token: the bytes of a string are plain, and no string and
no other number follows a number. -/
inductive ReadablePieces : List JsonPiece → Prop where
  | nil : ReadablePieces []
  | mark {byte : UInt8} {rest : List JsonPiece} (own : byte ∈ jsonMarks)
      (later : ReadablePieces rest) : ReadablePieces (.mark byte :: rest)
  | string {bytes : List UInt8} {rest : List JsonPiece} (plain : ∀ byte ∈ bytes, PlainByte byte)
      (later : ReadablePieces rest) : ReadablePieces (.string bytes :: rest)
  | number {text : List UInt8} {value : ℚ} {rest : List JsonPiece}
      (reads : ReadsNumber text value) (led : LedByMark rest) (later : ReadablePieces rest) :
      ReadablePieces (.number text value :: rest)

theorem ReadablePieces.append {first second : List JsonPiece} (readable : ReadablePieces first)
    (led : LedByMark second) (also : ReadablePieces second) : ReadablePieces (first ++ second) := by
  induction readable with
  | nil => exact also
  | mark own _ ih => exact .mark own ih
  | string plain _ ih => exact .string plain ih
  | @number text value rest reads led' _ ih =>
    apply ReadablePieces.number reads _ ih
    cases rest with
    | nil => exact led
    | cons next more => exact led'

theorem lex_string {bytes more : List UInt8} (plain : ∀ byte ∈ bytes, PlainByte byte) :
    lexString (bytes ++ 0x22 :: more) = some (.string bytes, more) := by
  have all : ∀ byte ∈ bytes, (decide (PlainByte byte)) = true :=
    fun byte member => decide_eq_true (plain byte member)
  have stop : ∀ byte ∈ (0x22 :: more : List UInt8).head?, decide (PlainByte byte) = false := by
    intro byte same
    obtain rfl := Option.some.inj same
    decide
  obtain ⟨taken, left⟩ := digits_run all stop
  unfold lexString
  rw [taken, left]
  rfl

theorem lex_json_step {text rest : List UInt8} {token : JsonToken} {fuel : Nat}
    (lexed : lexToken text = some (token, rest)) :
    lexJson (fuel + 1) text = (lexJson fuel rest).map (token :: ·) := by
  cases text with
  | nil => cases lexed
  | cons byte more =>
    simp only [lexJson, lexed, Option.bind_eq_bind, Option.bind_some]
    cases lexJson fuel rest with
    | none => rfl
    | some tokens => rfl

/-- One piece, and then the others. -/
theorem lex_piece {piece : JsonPiece} {rest : List JsonPiece} (nonempty : piece.text ≠ [])
    (lexed : lexToken (piece.text ++ rest.flatMap JsonPiece.text) =
      some (piece.token, rest.flatMap JsonPiece.text))
    (later : ∀ fuel, (rest.flatMap JsonPiece.text).length ≤ fuel →
      lexJson fuel (rest.flatMap JsonPiece.text) = some (rest.map JsonPiece.token))
    (fuel : Nat) (enough : ((piece :: rest).flatMap JsonPiece.text).length ≤ fuel) :
    lexJson fuel ((piece :: rest).flatMap JsonPiece.text) =
      some ((piece :: rest).map JsonPiece.token) := by
  rw [List.flatMap_cons, List.length_append] at enough
  rw [List.flatMap_cons, List.map_cons]
  have one : 1 ≤ piece.text.length := List.length_pos_of_ne_nil nonempty
  obtain _ | fuel := fuel
  · omega
  · rw [lex_json_step lexed, later fuel (by omega)]
    rfl

/-- A readable text is read as the tokens of its pieces. -/
theorem ReadablePieces.lex {pieces : List JsonPiece} (readable : ReadablePieces pieces) :
    ∀ fuel, (pieces.flatMap JsonPiece.text).length ≤ fuel →
      lexJson fuel (pieces.flatMap JsonPiece.text) = some (pieces.map JsonPiece.token) := by
  induction readable with
  | nil =>
    intro fuel _
    cases fuel <;> rfl
  | @mark byte rest own _ ih =>
    exact lex_piece (List.cons_ne_nil _ _) (if_pos own) ih
  | @string bytes rest plain _ ih =>
    have split : JsonPiece.text (.string bytes) ++ rest.flatMap JsonPiece.text =
        0x22 :: (bytes ++ 0x22 :: rest.flatMap JsonPiece.text) := by
      simp [JsonPiece.text]
    have lexed : lexToken (JsonPiece.text (.string bytes) ++ rest.flatMap JsonPiece.text) =
        some (.string bytes, rest.flatMap JsonPiece.text) := by
      rw [split, lexToken, if_neg (by decide), if_pos rfl]
      exact lex_string plain
    exact lex_piece (List.cons_ne_nil _ _) lexed ih
  | @number text value rest reads led _ ih =>
    have next : ∀ byte ∈ (rest.flatMap JsonPiece.text).head?, byte ∈ jsonMarks := by
      cases rest with
      | nil => nofun
      | cons piece more =>
        obtain ⟨mark, isMark, rfl⟩ := led piece rfl
        intro byte same
        rw [← Option.some.inj same]
        exact isMark
    exact lex_piece reads.1 (reads.2 _ next) ih

/-! ### Numbers -/

theorem mark_no_digit {byte : UInt8} (mark : byte ∈ jsonMarks) :
    isDigit byte = false ∧ byte ≠ 0x2e := by
  have all : jsonMarks.all (fun byte => !isDigit byte && byte != 0x2e) = true := by decide
  have own := List.all_eq_true.mp all byte mark
  simp only [Bool.and_eq_true, Bool.not_eq_true', bne_iff_ne] at own
  exact own

/-- Text that starts with a digit is a number. -/
theorem lex_digit {byte : UInt8} (digit : isDigit byte = true) (more : List UInt8) :
    lexToken (byte :: more) = lexNumber (byte :: more) := by
  have plain : byte ∉ jsonMarks := by
    intro mark
    rw [(mark_no_digit mark).1] at digit
    cases digit
  have unquoted : byte ≠ 0x22 := by
    rintro rfl
    exact absurd digit (by decide)
  rw [lexToken, if_neg plain, if_neg unquoted]

theorem lex_decimal {value : Nat} {digits more : List UInt8} (decimal : Decimal value digits) :
    lexToken (digits ++ more) = lexNumber (digits ++ more) := by
  cases digits with
  | nil => exact absurd rfl decimal.nonempty
  | cons digit rest => exact lex_digit (decimal.all digit List.mem_cons_self) _

theorem Decimal.leads {value : Nat} {digits : List UInt8} (decimal : Decimal value digits) :
    ¬ (digits = [] ∨ digits.head? = some 0x30 ∧ digits ≠ [0x30]) := by
  rintro (empty | ⟨zero, more⟩)
  · exact decimal.nonempty empty
  · exact more (decimal.leading zero)

theorem reads_decimal (value : Nat) : ReadsNumber (decimal value) value := by
  have spec := decimal_spec value
  constructor
  · exact spec.nonempty
  intro more marks
  obtain ⟨taken, left⟩ :=
    digits_run spec.all fun byte first => (mark_no_digit (marks byte first)).1
  rw [lex_decimal spec]
  unfold lexNumber
  rw [taken, left, if_neg spec.leads, spec.value]
  split
  next rest =>
    have point := marks 0x2e rfl
    exact absurd rfl (mark_no_digit point).2
  next => rfl

/-- The three digits of a fraction below a thousand. -/
theorem fraction_digits {nanoseconds : UInt64} :
    let digits := [traceDigit (nanoseconds % 1000 / 100), traceDigit (nanoseconds % 1000 / 10 % 10),
      traceDigit (nanoseconds % 1000 % 10)]
    (∀ digit ∈ digits, isDigit digit = true) ∧ digitsValue digits = nanoseconds.toNat % 1000 := by
  have digit : ∀ value < 10, isDigit (UInt8.ofNat (0x30 + value)) = true ∧
      (UInt8.ofNat (0x30 + value)).toNat - 0x30 = value := by decide
  have first : (nanoseconds % 1000 / 100).toNat = nanoseconds.toNat % 1000 / 100 := by simp
  have second : (nanoseconds % 1000 / 10 % 10).toNat = nanoseconds.toNat % 1000 / 10 % 10 := by
    simp
  have third : (nanoseconds % 1000 % 10).toNat = nanoseconds.toNat % 1000 % 10 := by simp
  obtain ⟨firstDigit, firstValue⟩ := digit (nanoseconds.toNat % 1000 / 100) (by omega)
  obtain ⟨secondDigit, secondValue⟩ := digit (nanoseconds.toNat % 1000 / 10 % 10) (by omega)
  obtain ⟨thirdDigit, thirdValue⟩ := digit (nanoseconds.toNat % 1000 % 10) (by omega)
  simp only [traceDigit, first, second, third]
  constructor
  · simp only [List.mem_cons, List.not_mem_nil, or_false]
    rintro byte (rfl | rfl | rfl)
    · exact firstDigit
    · exact secondDigit
    · exact thirdDigit
  · simp only [digitsValue, List.foldl_cons, List.foldl_nil, firstValue, secondValue, thirdValue]
    omega

/-- Digits, a point and more digits. -/
theorem lex_fraction {value : Nat} {whole fraction more : List UInt8} (spec : Decimal value whole)
    (all : ∀ digit ∈ fraction, isDigit digit = true) (nonempty : fraction ≠ [])
    (stops : ∀ byte ∈ more.head?, isDigit byte = false) :
    lexNumber (whole ++ 0x2e :: (fraction ++ more)) =
      some (.number (value + digitsValue fraction / 10 ^ fraction.length), more) := by
  have point : ∀ byte ∈ (0x2e :: (fraction ++ more) : List UInt8).head?,
      isDigit byte = false := by
    intro byte same
    rw [← Option.some.inj same]
    rfl
  obtain ⟨wholeTaken, wholeLeft⟩ := digits_run spec.all point
  obtain ⟨taken, left⟩ := digits_run all stops
  unfold lexNumber
  rw [wholeTaken, wholeLeft, if_neg spec.leads]
  split
  next rest same =>
    obtain rfl := (List.cons.inj same).2
    rw [taken, left, if_neg nonempty, spec.value]
  next other => exact absurd rfl (other (fraction ++ more))

/-- A count of nanoseconds is its microseconds and a thousandth of the rest. -/
theorem microseconds_split (nanoseconds : Nat) :
    (nanoseconds : ℚ) / 1000 = (nanoseconds / 1000 : ℕ) + (nanoseconds % 1000 : ℕ) / 1000 := by
  have parts : (nanoseconds : ℚ) =
      1000 * (nanoseconds / 1000 : ℕ) + (nanoseconds % 1000 : ℕ) := by
    exact_mod_cast (Nat.div_add_mod nanoseconds 1000).symm
  rw [parts, add_div, mul_div_cancel_left₀ _ (by norm_num)]

/-- The time that is written is the exact quotient. -/
theorem reads_microseconds (nanoseconds : UInt64) :
    ReadsNumber (appendTraceMicroseconds nanoseconds) ((nanoseconds.toNat : ℚ) / 1000) := by
  have spec := decimal_spec (nanoseconds / 1000).toNat
  have wholeValue : (nanoseconds / 1000).toNat = nanoseconds.toNat / 1000 := by simp
  rw [microseconds_split]
  by_cases whole : nanoseconds % 1000 = 0
  · have written : appendTraceMicroseconds nanoseconds = decimal (nanoseconds / 1000).toNat := by
      simp only [appendTraceMicroseconds, whole, ne_eq, not_true_eq_false, if_false,
        List.append_nil]
    have remainder : nanoseconds.toNat % 1000 = 0 := by
      have same := congrArg UInt64.toNat whole
      simpa using same
    rw [written, remainder, ← wholeValue, Nat.cast_zero, zero_div, add_zero]
    exact reads_decimal _
  · obtain ⟨all, value⟩ := @fraction_digits nanoseconds
    have written : appendTraceMicroseconds nanoseconds = decimal (nanoseconds / 1000).toNat ++
        0x2e :: [traceDigit (nanoseconds % 1000 / 100),
          traceDigit (nanoseconds % 1000 / 10 % 10), traceDigit (nanoseconds % 1000 % 10)] := by
      simp only [appendTraceMicroseconds, ne_eq, whole, not_false_eq_true, if_true]
    rw [written]
    constructor
    · exact List.append_ne_nil_of_left_ne_nil spec.nonempty _
    intro more marks
    have stops : ∀ byte ∈ more.head?, isDigit byte = false :=
      fun byte first => (mark_no_digit (marks byte first)).1
    rw [List.append_assoc, List.cons_append, lex_decimal spec,
      lex_fraction spec all (List.cons_ne_nil _ _) stops, value, wholeValue]
    norm_num

end Dui
