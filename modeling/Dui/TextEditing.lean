import Dui.Foundation

/-! Text values as they cross the text-input boundary: UTF-8 bytes with byte
ranges, and the validation both sides apply to them. -/
namespace Dui

/-- What a first byte announces: the length of its sequence, its payload bits
and the smallest code point of that length. -/
def sequenceHead (first : UInt8) : Option (Nat × Nat × Nat) :=
  if first ≤ 0x7f then some (1, first.toNat, 0)
  else if first &&& 0xe0 = 0xc0 then some (2, (first &&& 0x1f).toNat, 0x80)
  else if first &&& 0xf0 = 0xe0 then some (3, (first &&& 0x0f).toNat, 0x800)
  else if first &&& 0xf8 = 0xf0 then some (4, (first &&& 0x07).toNat, 0x10000)
  else none

/-- The code point after some continuation bytes. -/
def continueCodePoint : Nat → List UInt8 → Option Nat
  | codePoint, [] => some codePoint
  | codePoint, continuation :: rest =>
    if continuation &&& 0xc0 ≠ 0x80 then none
    else continueCodePoint (codePoint * 64 + (continuation &&& 0x3f).toNat) rest

/-- The text after its first code point, if that is well formed. -/
def dropCodePoint (first : UInt8) (rest : List UInt8) : Option (List UInt8) := do
  let (length, leading, minimum) ← sequenceHead first
  if length > rest.length + 1 then none
  let codePoint ← continueCodePoint leading (rest.take (length - 1))
  if codePoint < minimum ∨ codePoint > 0x10ffff ∨ (codePoint ≥ 0xd800 ∧ codePoint ≤ 0xdfff) then
    none
  pure (rest.drop (length - 1))

/-- The loop of `is_valid_utf8`; every turn consumes at least one byte. -/
def isValidUtf8Loop : Nat → List UInt8 → Bool
  | _, [] => true
  | 0, _ :: _ => false
  | fuel + 1, first :: rest =>
    match dropCodePoint first rest with
    | none => false
    | some rest => isValidUtf8Loop fuel rest

def isValidUtf8 (text : List UInt8) : Bool := isValidUtf8Loop text.length text

structure TextRange where
  start : Nat := 0
  stop : Nat := 0
  deriving DecidableEq, Repr

/-- The `is_boundary` of `TextRange::valid_for`. -/
def isBoundary (text : List UInt8) (offset : Nat) : Bool :=
  if offset > text.length then false
  else match text[offset]? with
    | none => true
    | some byte => byte &&& 0xc0 ≠ 0x80

def TextRange.validFor (range : TextRange) (text : List UInt8) : Bool :=
  isValidUtf8 text && (range.start ≤ range.stop && isBoundary text range.start &&
    isBoundary text range.stop)

structure TextEditingValue where
  text : List UInt8 := []
  selection : TextRange := {}
  composing : Option TextRange := none
  deriving DecidableEq, Repr

def TextEditingValue.valid (value : TextEditingValue) : Bool :=
  value.selection.validFor value.text &&
    (match value.composing with
      | none => true
      | some composing => composing.validFor value.text)

inductive TextInputAction where
  | none
  | done
  | next
  | search
  | send
  deriving DecidableEq, Repr

structure TextInputConfiguration where
  multiline : Bool := false
  obscureText : Bool := false
  autocorrect : Bool := true
  action : TextInputAction := .done
  deriving DecidableEq, Repr

end Dui
