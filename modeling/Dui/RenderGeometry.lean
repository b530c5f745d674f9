import Mathlib.Algebra.Order.Ring.Rat
import Mathlib.Order.WithBot
import Dui.Foundation

/-! Constraints and geometry of layout. Lengths are exact rationals; a length without a
bound is `⊤`. The checks of the constructors are fields. -/
namespace Dui

/-- A length that may be infinite. -/
abbrev Extent := WithTop ℚ

structure Insets where
  left : ℚ := 0
  top : ℚ := 0
  right : ℚ := 0
  bottom : ℚ := 0
  deriving DecidableEq, Repr

namespace Insets

def horizontal (insets : Insets) : ℚ := insets.left + insets.right

def vertical (insets : Insets) : ℚ := insets.top + insets.bottom

end Insets

def Size.contains (size : Size) (point : Offset) : Bool :=
  0 ≤ point.x && 0 ≤ point.y && point.x < size.width && point.y < size.height

/-- `std::clamp`. -/
def clamp (value low : ℚ) (high : Extent) : ℚ :=
  if value < low then low
  else match high with
    | ⊤ => value
    | some high => if high < value then high else value

/-- Box constraints. A least length that is not finite only comes with a greatest length
that is not finite, and only the root is laid out under given constraints, which refuses
those; so least lengths are finite here. -/
structure BoxConstraints where
  minWidth : ℚ := 0
  maxWidth : Extent := ⊤
  minHeight : ℚ := 0
  maxHeight : Extent := ⊤
  valid : 0 ≤ minWidth ∧ 0 ≤ minHeight ∧ minWidth ≤ maxWidth ∧ minHeight ≤ maxHeight
  deriving DecidableEq

namespace BoxConstraints

/-- The constraints that leave every size. -/
theorem unbounded_valid :
    (0 : ℚ) ≤ 0 ∧ (0 : ℚ) ≤ 0 ∧ ((0 : ℚ) : Extent) ≤ ⊤ ∧ ((0 : ℚ) : Extent) ≤ ⊤ :=
  ⟨le_rfl, le_rfl, le_top, le_top⟩

/-- The constructor. -/
def checked (minWidth : ℚ) (maxWidth : Extent) (minHeight : ℚ) (maxHeight : Extent) :
    Except Failure BoxConstraints :=
  if valid : 0 ≤ minWidth ∧ 0 ≤ minHeight ∧ minWidth ≤ maxWidth ∧ minHeight ≤ maxHeight then
    .ok ⟨minWidth, maxWidth, minHeight, maxHeight, valid⟩
  else .error (.invalidArgument "BoxConstraints must be normalized and non-negative")

/-- `loose`. -/
def loose (size : Size) : Except Failure BoxConstraints := checked 0 size.width 0 size.height

/-- `constrain`; the size must not be negative. -/
def constrain (constraints : BoxConstraints) (size : Size) : Except Failure Size :=
  if size.width < 0 ∨ size.height < 0 then
    .error (.invalidArgument "A constrained Size must be finite and non-negative")
  else
    .ok ⟨clamp size.width constraints.minWidth constraints.maxWidth,
      clamp size.height constraints.minHeight constraints.maxHeight⟩

/-- `loosen`. -/
def loosen (constraints : BoxConstraints) : BoxConstraints where
  maxWidth := constraints.maxWidth
  maxHeight := constraints.maxHeight
  valid := by
    obtain ⟨width, height, least, lowest⟩ := constraints.valid
    refine ⟨le_rfl, le_rfl, ?_, ?_⟩
    · exact le_trans (WithTop.coe_le_coe.mpr width) least
    · exact le_trans (WithTop.coe_le_coe.mpr height) lowest

/-- `biggest`, when it is finite. -/
def biggest (constraints : BoxConstraints) : Option Size :=
  match constraints.maxWidth, constraints.maxHeight with
  | some width, some height => some ⟨width, height⟩
  | _, _ => none

end BoxConstraints

/-- `BoxConstraints{}.constrain`, called for its check alone. -/
def checkSize (size : Size) : Except Failure Unit :=
  discard (BoxConstraints.constrain { valid := BoxConstraints.unbounded_valid } size)

structure SliverConstraints where
  scrollOffset : ℚ
  precedingScrollExtent : ℚ
  remainingPaintExtent : ℚ
  crossAxisExtent : ℚ
  viewportMainAxisExtent : ℚ
  valid : 0 ≤ scrollOffset ∧ 0 ≤ precedingScrollExtent ∧ 0 ≤ remainingPaintExtent ∧
    0 ≤ crossAxisExtent ∧ 0 ≤ viewportMainAxisExtent
  deriving DecidableEq

/-- The constructor. -/
def SliverConstraints.checked (scrollOffset precedingScrollExtent remainingPaintExtent
    crossAxisExtent viewportMainAxisExtent : ℚ) : Except Failure SliverConstraints :=
  if valid : 0 ≤ scrollOffset ∧ 0 ≤ precedingScrollExtent ∧ 0 ≤ remainingPaintExtent ∧
      0 ≤ crossAxisExtent ∧ 0 ≤ viewportMainAxisExtent then
    .ok ⟨scrollOffset, precedingScrollExtent, remainingPaintExtent, crossAxisExtent,
      viewportMainAxisExtent, valid⟩
  else .error (.invalidArgument "SliverConstraints values must be finite and non-negative")

/-- `as_box_constraints`. -/
def SliverConstraints.asBoxConstraints (constraints : SliverConstraints) : BoxConstraints where
  minWidth := constraints.crossAxisExtent
  maxWidth := constraints.crossAxisExtent
  valid := ⟨constraints.valid.2.2.2.1, le_rfl, le_rfl, le_top⟩

/-- The extents of a sliver that takes no space are normalized. -/
theorem empty_extents : (0 : ℚ) ≤ 0 ∧ (0 : ℚ) ≤ 0 ∧ (0 : ℚ) ≤ 0 ∧ (0 : ℚ) ≤ 0 ∧ (0 : ℚ) ≤ 0 :=
  ⟨le_rfl, le_rfl, le_rfl, le_rfl, le_rfl⟩

structure SliverGeometry where
  scrollExtent : ℚ := 0
  paintExtent : ℚ := 0
  maxPaintExtent : ℚ := 0
  hitTestExtent : ℚ := 0
  hasVisualOverflow : Bool := false
  valid : 0 ≤ scrollExtent ∧ 0 ≤ paintExtent ∧ paintExtent ≤ maxPaintExtent ∧
    0 ≤ hitTestExtent ∧ hitTestExtent ≤ paintExtent := by exact empty_extents
  deriving DecidableEq

/-- The constructor. -/
def SliverGeometry.checked (scrollExtent paintExtent maxPaintExtent hitTestExtent : ℚ)
    (hasVisualOverflow : Bool) : Except Failure SliverGeometry :=
  if valid : 0 ≤ scrollExtent ∧ 0 ≤ paintExtent ∧ paintExtent ≤ maxPaintExtent ∧
      0 ≤ hitTestExtent ∧ hitTestExtent ≤ paintExtent then
    .ok ⟨scrollExtent, paintExtent, maxPaintExtent, hitTestExtent, hasVisualOverflow, valid⟩
  else
    .error (.invalidArgument "SliverGeometry extents must be finite, non-negative, and normalized")

end Dui
