import Dui.Bisect
import Dui.RenderGeometry

/-! The ranges of a fixed-extent sliver list: which items are visible, which belong to the
cache, and which of the mounted children are painted. -/
namespace Dui
open Bisect

/-- `ChildRange`: the items a list needs, up to the given index, for its model. -/
structure ChildRange where
  first : Nat
  upTo : Nat
  revision : Nat
  deriving DecidableEq, Repr

/-- `first_item_at`. -/
def firstItemAt (offset itemExtent : ℚ) (childCount : Nat) (scrollExtent : ℚ) : Nat :=
  if childCount = 0 ∨ offset ≥ scrollExtent then childCount
  else
    let first := boundary (fun middle => (middle : ℚ) * itemExtent ≤ offset) childCount
    if first = 0 then 0 else first - 1

/-- `first_item_starting_at_or_after_viewport_position`. -/
def firstItemStartingAtOrAfterViewportPosition (scrollOffset viewportPosition itemExtent : ℚ)
    (childCount : Nat) : Nat :=
  boundary (fun middle => (middle : ℚ) * itemExtent - scrollOffset < viewportPosition) childCount

/-- `first_item_intersecting_leading_cache`. -/
def firstItemIntersectingLeadingCache (scrollOffset cacheExtent itemExtent : ℚ) (childCount : Nat)
    (scrollExtent : ℚ) : Nat :=
  if childCount = 0 ∨ scrollOffset - scrollExtent ≥ cacheExtent then childCount
  else if scrollOffset ≤ cacheExtent then 0
  else
    let first := boundary (fun middle => (middle : ℚ) * itemExtent - scrollOffset ≤ -cacheExtent)
      childCount
    if first = 0 then 0 else first - 1

/-- `item_at_viewport_position`. -/
def itemAtViewportPosition (scrollOffset viewportPosition itemExtent : ℚ) (childCount : Nat) :
    Nat :=
  let first := boundary (fun middle => (middle : ℚ) * itemExtent - scrollOffset ≤ viewportPosition)
    childCount
  if first = 0 then childCount else first - 1

/-- `RenderSliverFixedExtentList`, without what every sliver has. -/
structure FixedExtentList where
  itemExtent : ℚ
  cacheExtent : ℚ := 0
  isLazy : Bool := false
  logicalChildCount : Nat := 0
  firstMountedIndex : Nat := 0
  mountedChildCount : Nat := 0
  modelRevision : Nat := 0
  mountedRevision : Nat := 0
  requestedChildRange : Option ChildRange := none
  firstVisibleIndex : Nat := 0
  firstVisibleChild : Nat := 0
  visibleChildCount : Nat := 0
  valid : 0 < itemExtent ∧ 0 ≤ cacheExtent
  deriving DecidableEq

namespace FixedExtentList
variable (list : FixedExtentList) (childCount : Nat) (constraints : SliverConstraints)

/-- `logical_child_count`, given how many children are mounted. -/
def logicalCount : Nat := if list.isLazy then list.logicalChildCount else childCount

/-- The `scroll_extent` of `perform_layout`. -/
def scrollExtent : ℚ := (list.logicalCount childCount : ℚ) * list.itemExtent

/-- The `visible_extent` of `perform_layout`. -/
def visibleExtent : ℚ :=
  min (max 0 (list.scrollExtent childCount - constraints.scrollOffset))
    constraints.remainingPaintExtent

/-- The `first_visible_index_` that `perform_layout` sets. -/
def firstVisible : Nat :=
  firstItemAt constraints.scrollOffset list.itemExtent (list.logicalCount childCount)
    (list.scrollExtent childCount)

/-- The `trailing_index` of `perform_layout`. -/
def trailingIndex : Nat :=
  firstItemStartingAtOrAfterViewportPosition constraints.scrollOffset
    (list.visibleExtent childCount constraints) list.itemExtent (list.logicalCount childCount)

/-- The `visible_child_count_` that `perform_layout` sets first. -/
def visibleCount : Nat :=
  if list.visibleExtent childCount constraints = 0 then 0
  else list.trailingIndex childCount constraints - list.firstVisible childCount constraints

/-- The `first_cached_index` of `perform_layout`. -/
def firstCached : Nat :=
  firstItemIntersectingLeadingCache constraints.scrollOffset list.cacheExtent list.itemExtent
    (list.logicalCount childCount) (list.scrollExtent childCount)

/-- The `cached_end` of `perform_layout`. -/
def cachedEnd : Nat :=
  firstItemStartingAtOrAfterViewportPosition constraints.scrollOffset
    (constraints.remainingPaintExtent + list.cacheExtent) list.itemExtent
    (list.logicalCount childCount)

/-- The children mounted are not the items to be cached, so `perform_layout` asks for
those. -/
def mustRequest : Bool :=
  list.isLazy &&
    (list.mountedRevision ≠ list.modelRevision ||
      list.firstMountedIndex ≠ list.firstCached childCount constraints ||
      list.mountedChildCount ≠
        list.cachedEnd childCount constraints - list.firstCached childCount constraints ||
      list.mountedChildCount ≠ childCount)

/-- The fields after `perform_layout`. -/
def updateRanges : FixedExtentList :=
  if list.mustRequest childCount constraints then
    { list with
      requestedChildRange := some ⟨list.firstCached childCount constraints,
        list.cachedEnd childCount constraints, list.modelRevision⟩
      firstVisibleIndex := list.firstVisible childCount constraints
      firstVisibleChild := 0
      visibleChildCount := 0 }
  else
    { list with
      requestedChildRange := none
      firstVisibleIndex := list.firstVisible childCount constraints
      firstVisibleChild :=
        if list.isLazy then list.firstVisible childCount constraints - list.firstMountedIndex
        else list.firstVisible childCount constraints
      visibleChildCount := list.visibleCount childCount constraints }

/-- `paint_child_range`. -/
def paintChildRange : Nat × Nat :=
  (list.firstVisibleChild, list.firstVisibleChild + list.visibleChildCount)

end FixedExtentList

end Dui
