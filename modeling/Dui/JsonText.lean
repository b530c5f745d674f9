import Dui.Utf8

/-!
# JSON and HTML text

`append_json_string` writes any bytes as a JSON string, with a recogniser of UTF-8 of
its own, and `append_html_literal` writes that string where HTML would read markup.
Both are compared with readers: one of JSON strings over characters, and one of the
character references of HTML.
-/

namespace Dui

/-- The bytes of a text of ASCII characters. -/
def ascii (text : String) : List UInt8 := text.toList.map fun char => UInt8.ofNat char.toNat

/-! ### The encoders -/

/-- What the encoder takes a byte of `0x80` and above to announce: the length of its
sequence, 0 for none, and whether the second byte, if there is one, is in range. -/
def announcedSequence (character : UInt8) (second : Option UInt8) : Nat × Bool :=
  if 0xc2 ≤ character ∧ character ≤ 0xdf then (2, true)
  else if 0xe0 ≤ character ∧ character ≤ 0xef then
    (3, match second with
      | none => true
      | some second =>
        if character = 0xe0 then 0xa0 ≤ second ∧ second ≤ 0xbf
        else if character = 0xed then 0x80 ≤ second ∧ second ≤ 0x9f
        else 0x80 ≤ second ∧ second ≤ 0xbf)
  else if 0xf0 ≤ character ∧ character ≤ 0xf4 then
    (4, match second with
      | none => true
      | some second =>
        if character = 0xf0 then 0x90 ≤ second ∧ second ≤ 0xbf
        else if character = 0xf4 then 0x80 ≤ second ∧ second ≤ 0x8f
        else 0x80 ≤ second ∧ second ≤ 0xbf)
  else (0, true)

/-- The length of the sequence that a byte of `0x80` and above starts, if it is valid. -/
def validSequence (character : UInt8) (rest : List UInt8) : Option Nat :=
  let (length, validSecond) := announcedSequence character rest.head?
  if length ≠ 0 ∧ length ≤ rest.length + 1 ∧ validSecond ∧
      (rest.take (length - 1)).all (fun byte => 0x80 ≤ byte ∧ byte ≤ 0xbf) then
    some length
  else none

/-- A hexadecimal digit in lower case. -/
def hexDigit (value : Nat) : UInt8 :=
  if value < 10 then UInt8.ofNat (0x30 + value) else UInt8.ofNat (0x61 + (value - 10))

/-- The switch over a byte below `0x80`. -/
def escapeCharacter (character : UInt8) : List UInt8 :=
  if character = 0x22 then [0x5c, 0x22]
  else if character = 0x5c then [0x5c, 0x5c]
  else if character = 0x08 then ascii "\\b"
  else if character = 0x0c then ascii "\\f"
  else if character = 0x0a then ascii "\\n"
  else if character = 0x0d then ascii "\\r"
  else if character = 0x09 then ascii "\\t"
  else if character < 0x20 then
    ascii "\\u00" ++ [hexDigit (character.toNat / 16), hexDigit (character.toNat % 16)]
  else [character]

/-- A turn of the loop of `append_json_string`: what it writes, and the text left. -/
def jsonTurn (character : UInt8) (rest : List UInt8) : List UInt8 × List UInt8 :=
  if 0x80 ≤ character then
    match validSequence character rest with
    | none => (ascii "\\ufffd", rest)
    | some length => (character :: rest.take (length - 1), rest.drop (length - 1))
  else (escapeCharacter character, rest)

/-- The loop; every turn consumes at least one byte. -/
def jsonTurns : Nat → List UInt8 → List UInt8
  | _, [] => []
  | 0, _ :: _ => []
  | fuel + 1, character :: rest =>
    let (written, rest) := jsonTurn character rest
    written ++ jsonTurns fuel rest

/-- What `append_json_string` appends. -/
def appendJsonString (value : List UInt8) : List UInt8 :=
  0x22 :: jsonTurns value.length value ++ [0x22]

/-- The switch of `append_html_literal`. -/
def escapeHtml (character : UInt8) : List UInt8 :=
  if character = 0x26 then ascii "&amp;"
  else if character = 0x3c then ascii "&lt;"
  else if character = 0x3e then ascii "&gt;"
  else if character = 0x22 then ascii "&quot;"
  else if character = 0x27 then ascii "&#39;"
  else [character]

/-- What `append_html_literal` appends. -/
def appendHtmlLiteral (value : List UInt8) : List UInt8 :=
  (appendJsonString value).flatMap escapeHtml

/-! ### The readers -/

/-- The replacement character. -/
def replacement : Char := Char.ofNat 0xfffd

/-- The characters a reader of UTF-8 finds who goes from left to right and takes a
byte that starts no encoding for the replacement character. -/
inductive Scans : List UInt8 → List Char → Prop where
  | nil : Scans [] []
  | encoding (char : Char) {rest : List UInt8} {chars : List Char} (scans : Scans rest chars) :
      Scans (String.utf8EncodeChar char ++ rest) (char :: chars)
  | malformed {byte : UInt8} {rest : List UInt8} {chars : List Char}
      (none : ∀ char tail, byte :: rest ≠ String.utf8EncodeChar char ++ tail)
      (scans : Scans rest chars) : Scans (byte :: rest) (replacement :: chars)

def quote : Char := Char.ofNat 0x22

def backslash : Char := Char.ofNat 0x5c

/-- The characters with an escape of one letter. -/
def shortEscapes : List (Char × Char) :=
  [(quote, quote), (backslash, backslash), ('/', '/'), ('b', Char.ofNat 0x08),
    ('f', Char.ofNat 0x0c), ('n', Char.ofNat 0x0a), ('r', Char.ofNat 0x0d),
    ('t', Char.ofNat 0x09)]

def hexValue (digit : Char) : Option Nat :=
  let value := digit.toNat
  if 0x30 ≤ value ∧ value ≤ 0x39 then some (value - 0x30)
  else if 0x61 ≤ value ∧ value ≤ 0x66 then some (value - 0x61 + 10)
  else if 0x41 ≤ value ∧ value ≤ 0x46 then some (value - 0x41 + 10)
  else none

/-- Four hexadecimal digits, and what follows them. -/
def codeUnit : List Char → Option (Nat × List Char)
  | first :: second :: third :: fourth :: rest => do
    let first ← hexValue first
    let second ← hexValue second
    let third ← hexValue third
    let fourth ← hexValue fourth
    some (((first * 16 + second) * 16 + third) * 16 + fourth, rest)
  | _ => none

/-- The low half of a surrogate pair, escaped. -/
def lowSurrogate : List Char → Option (Nat × List Char)
  | escape :: letter :: rest => do
    let (unit, rest) ← codeUnit rest
    if escape = backslash ∧ letter = 'u' ∧ 0xdc00 ≤ unit ∧ unit < 0xe000 then some (unit, rest)
    else none
  | _ => none

/-- An escape by code units; a surrogate comes in a pair. -/
def unicodeEscape (text : List Char) : Option (Char × List Char) := do
  let (unit, rest) ← codeUnit text
  if unit < 0xd800 ∨ 0xe000 ≤ unit then some (Char.ofNat unit, rest)
  else if unit < 0xdc00 then
    let (low, rest) ← lowSurrogate rest
    some (Char.ofNat (0x10000 + (unit - 0xd800) * 0x400 + (low - 0xdc00)), rest)
  else none

/-- One character of a JSON string, and what follows it. -/
def jsonCharacter : List Char → Option (Char × List Char)
  | [] => none
  | char :: rest =>
    if char = quote ∨ char.toNat < 0x20 then none
    else if char ≠ backslash then some (char, rest)
    else
      match rest with
      | [] => none
      | letter :: rest =>
        if letter = 'u' then unicodeEscape rest
        else (shortEscapes.lookup letter).map (·, rest)

/-- The characters up to the closing quote, which ends the text. -/
def jsonCharacters : Nat → List Char → Option (List Char)
  | 0, _ => none
  | fuel + 1, text =>
    if text = [quote] then some []
    else do
      let (char, rest) ← jsonCharacter text
      let chars ← jsonCharacters fuel rest
      some (char :: chars)

/-- Reads a text that is a JSON string. -/
def readJsonString : List Char → Option (List Char)
  | [] => none
  | char :: rest => if char = quote then jsonCharacters (rest.length + 1) rest else none

/-- The bytes HTML gives a meaning to, other than the ampersand. -/
def markup : List UInt8 := [0x3c, 0x3e, 0x22, 0x27]

/-- The references that stand for a character HTML gives a meaning to. -/
def htmlReferences : List (List UInt8 × UInt8) :=
  [(ascii "&amp;", 0x26), (ascii "&lt;", 0x3c), (ascii "&gt;", 0x3e), (ascii "&quot;", 0x22),
    (ascii "&#39;", 0x27)]

/-- The reference a text starts with. -/
def htmlReference (text : List UInt8) : Option (UInt8 × List UInt8) :=
  (htmlReferences.find? fun reference => reference.1.isPrefixOf text).map fun reference =>
    (reference.2, text.drop reference.1.length)

/-- Reads text without markup: no character of its own that HTML gives a meaning to,
and every ampersand one of a reference. -/
def readHtmlText : Nat → List UInt8 → Option (List UInt8)
  | _, [] => some []
  | 0, _ :: _ => none
  | fuel + 1, byte :: rest =>
    if byte = 0x26 then do
      let (byte, rest) ← htmlReference (byte :: rest)
      (readHtmlText fuel rest).map (byte :: ·)
    else if byte ∈ markup then none
    else (readHtmlText fuel rest).map (byte :: ·)

end Dui
