import Mathlib.Data.Rat.Defs

/-! Values shared by the whole framework: coordinates, which are exact
rationals here, and the standard exceptions its functions throw. -/
namespace Dui

/-- A thrown standard exception with its text. -/
inductive Failure where
  | logicError (what : String)
  | invalidArgument (what : String)
  | overflowError (what : String)
  | runtimeError (what : String)
  deriving DecidableEq, Repr

/-- The largest value of a 64-bit generation. -/
def maxGeneration : Nat := 18446744073709551615

structure Offset where
  x : ℚ := 0
  y : ℚ := 0
  deriving DecidableEq, Repr

instance : Add Offset := ⟨fun left right => ⟨left.x + right.x, left.y + right.y⟩⟩

instance : Sub Offset := ⟨fun left right => ⟨left.x - right.x, left.y - right.y⟩⟩

structure Size where
  width : ℚ := 0
  height : ℚ := 0
  deriving DecidableEq, Repr

structure Rect where
  origin : Offset := {}
  size : Size := {}
  deriving DecidableEq, Repr

/-! Results that are not thrown. -/

section Results
variable {α β : Type} {first : Except Failure α}

theorem bind_ok_iff {rest : α → Except Failure β} {result : β} :
    (first >>= rest) = .ok result ↔ ∃ value, first = .ok value ∧ rest value = .ok result := by
  cases first with
  | error failure => simp [bind, Except.bind]
  | ok value => simp [bind, Except.bind]

theorem map_ok_iff {f : α → β} {result : β} :
    first.map f = .ok result ↔ ∃ value, first = .ok value ∧ f value = result := by
  cases first with
  | error failure => simp [Except.map]
  | ok value => simp [Except.map]

end Results

end Dui
