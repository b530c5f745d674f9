import Mathlib.Tactic.Linarith
import Dui.FixedExtentList

/-! The binary searches of a fixed-extent list agree: each finds the items on one side of
a position, so the visible items, the cached items and the painted children are exactly
the ones between two positions, and no index is subtracted from a smaller one. -/
namespace Dui
open Bisect

/-- The last item that starts up to a position is the first one that ends after it, as
long as the last item of all ends after it. -/
theorem last_start_le_iff {itemExtent position : ℚ} {before : Nat → Bool} {count index : Nat}
    (counted : ∀ other, other < boundary before count ↔
      other < count ∧ (other : ℚ) * itemExtent ≤ position)
    (inside : index < count) (short : position < count * itemExtent) :
    (if boundary before count = 0 then 0 else boundary before count - 1) ≤ index ↔
      position < ((index : ℚ) + 1) * itemExtent := by
  have next := counted (index + 1)
  have start : ((index + 1 : Nat) : ℚ) = (index : ℚ) + 1 := by push_cast; rfl
  rw [start] at next
  constructor
  · intro found
    by_cases last : index + 1 < count
    · by_contra ended
      have later := next.mpr ⟨last, not_lt.mp ended⟩
      split at found <;> omega
    · have final : (count : ℚ) = (index : ℚ) + 1 := by
        rw [← start]
        congr 1
        omega
      rwa [← final]
  · intro ends
    have passed : ¬ index + 1 < boundary before count := fun found =>
      absurd (next.mp found).2 (not_le.mpr ends)
    split <;> omega

section
variable {itemExtent : ℚ} (positive : 0 < itemExtent)
include positive

/-- A test that holds up to some position holds of the items that start up to there. -/
theorem starts_downward (test : ℚ → Bool)
    (kept : ∀ start later, start ≤ later → test later = true → test start = true) :
    Downward fun middle => test ((middle : ℚ) * itemExtent) := by
  intro lower upper ordered holds
  refine kept _ _ ?_ holds
  exact mul_le_mul_of_nonneg_right (by exact_mod_cast ordered) positive.le

theorem lt_starts_before_iff {scrollOffset position : ℚ} {count index : Nat} :
    index < boundary (fun middle => (middle : ℚ) * itemExtent - scrollOffset < position) count ↔
      index < count ∧ (index : ℚ) * itemExtent < scrollOffset + position := by
  rw [lt_boundary_iff (starts_downward positive (fun start => start - scrollOffset < position) ?_)]
  · simp only [decide_eq_true_eq, sub_lt_iff_lt_add']
  · intro start later ordered holds
    simp only [decide_eq_true_eq] at holds ⊢
    linarith

theorem lt_starts_until_iff {scrollOffset position : ℚ} {count index : Nat} :
    index < boundary (fun middle => (middle : ℚ) * itemExtent - scrollOffset ≤ position) count ↔
      index < count ∧ (index : ℚ) * itemExtent ≤ scrollOffset + position := by
  rw [lt_boundary_iff (starts_downward positive (fun start => start - scrollOffset ≤ position) ?_)]
  · simp only [decide_eq_true_eq, sub_le_iff_le_add']
  · intro start later ordered holds
    simp only [decide_eq_true_eq] at holds ⊢
    linarith

theorem first_item_at_le_iff {offset : ℚ} {count index : Nat} (inside : index < count) :
    firstItemAt offset itemExtent count (count * itemExtent) ≤ index ↔
      offset < ((index : ℚ) + 1) * itemExtent := by
  unfold firstItemAt
  split
  case isTrue past =>
    obtain none | past := past
    · omega
    · have ended : ((index : ℚ) + 1) * itemExtent ≤ count * itemExtent := by
        refine mul_le_mul_of_nonneg_right ?_ positive.le
        exact_mod_cast inside
      constructor
      · intro found
        omega
      · intro short
        linarith
  case isFalse short =>
    obtain ⟨-, short⟩ := not_or.mp short
    refine last_start_le_iff (fun other => ?_) inside (not_le.mp short)
    have counted : other < boundary (fun middle => (middle : ℚ) * itemExtent - 0 ≤ offset) count ↔
        other < count ∧ (other : ℚ) * itemExtent ≤ 0 + offset := lt_starts_until_iff positive
    simpa using counted

theorem first_cached_le_iff {scrollOffset cacheExtent : ℚ} {count index : Nat}
    (inside : index < count) :
    firstItemIntersectingLeadingCache scrollOffset cacheExtent itemExtent count
        (count * itemExtent) ≤ index ↔
      scrollOffset - cacheExtent < ((index : ℚ) + 1) * itemExtent := by
  unfold firstItemIntersectingLeadingCache
  have later : (0 : ℚ) < ((index : ℚ) + 1) * itemExtent := by positivity
  split
  case isTrue past =>
    obtain none | past := past
    · omega
    · have ended : ((index : ℚ) + 1) * itemExtent ≤ count * itemExtent := by
        refine mul_le_mul_of_nonneg_right ?_ positive.le
        exact_mod_cast inside
      constructor
      · intro found
        omega
      · intro short
        linarith
  case isFalse short =>
    obtain ⟨-, short⟩ := not_or.mp short
    split
    case isTrue reaches =>
      refine ⟨fun _ => ?_, fun _ => Nat.zero_le _⟩
      linarith
    case isFalse =>
      refine last_start_le_iff (fun other => ?_) inside (by linarith)
      rw [lt_starts_until_iff positive, sub_eq_add_neg]

end

namespace FixedExtentList
variable (list : FixedExtentList) (childCount : Nat) (constraints : SliverConstraints)

theorem first_visible_le (index : Nat) (inside : index < list.logicalCount childCount) :
    list.firstVisible childCount constraints ≤ index ↔
      constraints.scrollOffset < ((index : ℚ) + 1) * list.itemExtent :=
  first_item_at_le_iff list.valid.1 inside

theorem lt_trailing (index : Nat) :
    index < list.trailingIndex childCount constraints ↔ index < list.logicalCount childCount ∧
      (index : ℚ) * list.itemExtent <
        constraints.scrollOffset + list.visibleExtent childCount constraints :=
  lt_starts_before_iff list.valid.1

theorem first_cached_le (index : Nat) (inside : index < list.logicalCount childCount) :
    list.firstCached childCount constraints ≤ index ↔
      constraints.scrollOffset - list.cacheExtent < ((index : ℚ) + 1) * list.itemExtent :=
  first_cached_le_iff list.valid.1 inside

theorem lt_cached_end (index : Nat) :
    index < list.cachedEnd childCount constraints ↔ index < list.logicalCount childCount ∧
      (index : ℚ) * list.itemExtent < constraints.scrollOffset +
        (constraints.remainingPaintExtent + list.cacheExtent) :=
  lt_starts_before_iff list.valid.1

theorem first_visible_le_count :
    list.firstVisible childCount constraints ≤ list.logicalCount childCount := by
  unfold firstVisible firstItemAt
  have bound := @boundary_le (fun middle =>
    decide ((middle : ℚ) * list.itemExtent ≤ constraints.scrollOffset))
    (list.logicalCount childCount)
  dsimp only
  split
  · exact le_rfl
  · split <;> omega

theorem first_cached_le_count :
    list.firstCached childCount constraints ≤ list.logicalCount childCount := by
  unfold firstCached firstItemIntersectingLeadingCache
  have bound := @boundary_le (fun middle =>
    decide ((middle : ℚ) * list.itemExtent - constraints.scrollOffset ≤ -list.cacheExtent))
    (list.logicalCount childCount)
  dsimp only
  split
  · exact le_rfl
  · split
    · exact Nat.zero_le _
    · split <;> omega

theorem cached_end_le_count :
    list.cachedEnd childCount constraints ≤ list.logicalCount childCount := boundary_le _

theorem visible_extent_nonneg : 0 ≤ list.visibleExtent childCount constraints :=
  le_min (le_max_left ..) constraints.valid.2.2.1

theorem visible_extent_le_remaining :
    list.visibleExtent childCount constraints ≤ constraints.remainingPaintExtent :=
  min_le_right ..

/-- The visible items end where the first one begins or later. -/
theorem first_visible_le_trailing :
    list.firstVisible childCount constraints ≤ list.trailingIndex childCount constraints := by
  by_contra crossed
  have bound := list.first_visible_le_count childCount constraints
  have inside : list.trailingIndex childCount constraints < list.logicalCount childCount := by omega
  have starts := mt (list.lt_trailing childCount constraints _).mpr
    (lt_irrefl (list.trailingIndex childCount constraints))
  have ends := mt (list.first_visible_le childCount constraints _ inside).mpr crossed
  have extent := list.visible_extent_nonneg childCount constraints
  have positive := list.valid.1
  simp only [inside, true_and, not_lt] at starts ends
  linarith

theorem first_cached_le_end :
    list.firstCached childCount constraints ≤ list.cachedEnd childCount constraints := by
  by_contra crossed
  have bound := list.first_cached_le_count childCount constraints
  have inside : list.cachedEnd childCount constraints < list.logicalCount childCount := by omega
  have starts := mt (list.lt_cached_end childCount constraints _).mpr
    (lt_irrefl (list.cachedEnd childCount constraints))
  have ends := mt (list.first_cached_le childCount constraints _ inside).mpr crossed
  have remaining := constraints.valid.2.2.1
  have cache := list.valid.2
  have positive := list.valid.1
  simp only [inside, true_and, not_lt] at starts ends
  linarith

/-- The cache begins at the first visible item or before it. -/
theorem first_cached_le_visible :
    list.firstCached childCount constraints ≤ list.firstVisible childCount constraints := by
  by_contra crossed
  have bound := list.first_cached_le_count childCount constraints
  have inside : list.firstVisible childCount constraints < list.logicalCount childCount := by omega
  have shown := (list.first_visible_le childCount constraints _ inside).mp le_rfl
  have ends := mt (list.first_cached_le childCount constraints _ inside).mpr crossed
  have cache := list.valid.2
  linarith

/-- The visible items end inside the cache. -/
theorem trailing_le_cached_end :
    list.trailingIndex childCount constraints ≤ list.cachedEnd childCount constraints := by
  by_contra crossed
  obtain ⟨inside, shown⟩ := (list.lt_trailing childCount constraints
    (list.cachedEnd childCount constraints)).mp (not_le.mp crossed)
  have starts := mt (list.lt_cached_end childCount constraints _).mpr
    (lt_irrefl (list.cachedEnd childCount constraints))
  have extent := list.visible_extent_le_remaining childCount constraints
  have cache := list.valid.2
  simp only [inside, true_and, not_lt] at starts
  linarith

theorem visible_count_le :
    list.firstVisible childCount constraints + list.visibleCount childCount constraints ≤
      list.trailingIndex childCount constraints := by
  have ordered := list.first_visible_le_trailing childCount constraints
  unfold visibleCount
  split <;> omega

/-- The items counted as visible are those between the two edges of what is shown. -/
theorem visible_iff (index : Nat) :
    (list.firstVisible childCount constraints ≤ index ∧
      index < list.firstVisible childCount constraints +
        list.visibleCount childCount constraints) ↔
      0 < list.visibleExtent childCount constraints ∧ index < list.logicalCount childCount ∧
        (index : ℚ) * list.itemExtent <
          constraints.scrollOffset + list.visibleExtent childCount constraints ∧
        constraints.scrollOffset < ((index : ℚ) + 1) * list.itemExtent := by
  have ordered := list.first_visible_le_trailing childCount constraints
  have extent := list.visible_extent_nonneg childCount constraints
  by_cases hidden : list.visibleExtent childCount constraints = 0
  · have none : list.visibleCount childCount constraints = 0 := if_pos hidden
    constructor
    · intro shown
      omega
    · rintro ⟨positive, -⟩
      exact absurd hidden positive.ne'
  · have positive : 0 < list.visibleExtent childCount constraints :=
      lt_of_le_of_ne extent (Ne.symm hidden)
    have count : list.visibleCount childCount constraints =
        list.trailingIndex childCount constraints - list.firstVisible childCount constraints :=
      if_neg hidden
    have trailing := list.lt_trailing childCount constraints index
    constructor
    · rintro ⟨first, last⟩
      obtain ⟨inside, starts⟩ := trailing.mp (by omega)
      exact ⟨positive, inside, starts,
        (list.first_visible_le childCount constraints index inside).mp first⟩
    · rintro ⟨-, inside, starts, ends⟩
      have first := (list.first_visible_le childCount constraints index inside).mpr ends
      have last := trailing.mpr ⟨inside, starts⟩
      omega

/-- The cached items are those between the two edges of the cache. -/
theorem cached_iff (index : Nat) :
    (list.firstCached childCount constraints ≤ index ∧
      index < list.cachedEnd childCount constraints) ↔
      index < list.logicalCount childCount ∧
        (index : ℚ) * list.itemExtent < constraints.scrollOffset +
          (constraints.remainingPaintExtent + list.cacheExtent) ∧
        constraints.scrollOffset - list.cacheExtent < ((index : ℚ) + 1) * list.itemExtent := by
  rw [list.lt_cached_end childCount constraints index]
  constructor
  · rintro ⟨first, inside, starts⟩
    exact ⟨inside, starts, (list.first_cached_le childCount constraints index inside).mp first⟩
  · rintro ⟨inside, starts, ends⟩
    exact ⟨(list.first_cached_le childCount constraints index inside).mpr ends, inside, starts⟩

/-- A lazy list that need not ask for children has just its cached items mounted. -/
theorem mounted_of_not_request
    (mounted : list.mustRequest childCount constraints = false) (isLazy : list.isLazy = true) :
    list.firstMountedIndex = list.firstCached childCount constraints ∧
      childCount = list.cachedEnd childCount constraints -
        list.firstCached childCount constraints := by
  simp only [mustRequest, isLazy, Bool.true_and, Bool.or_eq_false_iff, decide_eq_false_iff_not,
    not_not, ne_eq] at mounted
  obtain ⟨⟨⟨-, first⟩, count⟩, children⟩ := mounted
  exact ⟨first, children.symm.trans count⟩

theorem paint_child_range_valid :
    (list.updateRanges childCount constraints).paintChildRange.1 ≤
        (list.updateRanges childCount constraints).paintChildRange.2 ∧
      (list.updateRanges childCount constraints).paintChildRange.2 ≤ childCount := by
  refine ⟨Nat.le_add_right .., ?_⟩
  have shown := list.visible_count_le childCount constraints
  have cached := list.trailing_le_cached_end childCount constraints
  have leading := list.first_cached_le_visible childCount constraints
  have bound := list.cached_end_le_count childCount constraints
  unfold updateRanges
  cases request : list.mustRequest childCount constraints with
  | true => exact Nat.zero_le _
  | false =>
    cases isLazy : list.isLazy with
    | true =>
      obtain ⟨first, count⟩ := list.mounted_of_not_request childCount constraints request isLazy
      simp only [Bool.false_eq_true, ↓reduceIte, paintChildRange]
      omega
    | false =>
      simp only [logicalCount, isLazy, Bool.false_eq_true, ↓reduceIte] at bound
      simp only [Bool.false_eq_true, ↓reduceIte, paintChildRange]
      omega

end FixedExtentList

/-- An item is in the visible range of a list that has just been laid out. -/
def FixedExtentList.Visible (list : FixedExtentList) (index : Nat) : Prop :=
  list.firstVisibleIndex ≤ index ∧ index < list.firstVisibleIndex + list.visibleChildCount

/-- What the ranges of a fixed-extent list come to: the visible items (of a list that has
its items mounted) and the cached items are those between the edges, visible items are
cached, no index underflows, and the painted children exist. -/
theorem fixed_extent_ranges_exact (list : FixedExtentList) (childCount : Nat)
    (constraints : SliverConstraints) :
    (∀ index, (list.updateRanges childCount constraints).Visible index ↔
      list.mustRequest childCount constraints = false ∧
        0 < list.visibleExtent childCount constraints ∧ index < list.logicalCount childCount ∧
        (index : ℚ) * list.itemExtent <
          constraints.scrollOffset + list.visibleExtent childCount constraints ∧
        constraints.scrollOffset < ((index : ℚ) + 1) * list.itemExtent) ∧
    (∀ index, (list.firstCached childCount constraints ≤ index ∧
        index < list.cachedEnd childCount constraints) ↔
      index < list.logicalCount childCount ∧
        (index : ℚ) * list.itemExtent < constraints.scrollOffset +
          (constraints.remainingPaintExtent + list.cacheExtent) ∧
        constraints.scrollOffset - list.cacheExtent < ((index : ℚ) + 1) * list.itemExtent) ∧
    (list.firstCached childCount constraints ≤ list.firstVisible childCount constraints ∧
      list.firstVisible childCount constraints + list.visibleCount childCount constraints ≤
        list.cachedEnd childCount constraints ∧
      list.cachedEnd childCount constraints ≤ list.logicalCount childCount) ∧
    (list.firstVisible childCount constraints ≤ list.trailingIndex childCount constraints ∧
      list.firstCached childCount constraints ≤ list.cachedEnd childCount constraints ∧
      (list.isLazy = false ∨ list.mustRequest childCount constraints = true ∨
        list.firstMountedIndex ≤ list.firstVisible childCount constraints)) ∧
    ((list.updateRanges childCount constraints).paintChildRange.1 ≤
        (list.updateRanges childCount constraints).paintChildRange.2 ∧
      (list.updateRanges childCount constraints).paintChildRange.2 ≤ childCount) := by
  have shown := list.visible_count_le childCount constraints
  have cached := list.trailing_le_cached_end childCount constraints
  refine ⟨fun index => ?_, list.cached_iff childCount constraints,
    ⟨list.first_cached_le_visible childCount constraints, shown.trans cached,
      list.cached_end_le_count childCount constraints⟩,
    ⟨list.first_visible_le_trailing childCount constraints,
      list.first_cached_le_end childCount constraints, ?_⟩,
    list.paint_child_range_valid childCount constraints⟩
  · unfold FixedExtentList.Visible FixedExtentList.updateRanges
    cases request : list.mustRequest childCount constraints with
    | true =>
      simp only [↓reduceIte, Bool.true_eq_false, false_and, iff_false]
      omega
    | false =>
      simp only [Bool.false_eq_true, ↓reduceIte, true_and]
      exact list.visible_iff childCount constraints index
  · cases isLazy : list.isLazy with
    | false => exact .inl rfl
    | true =>
      cases request : list.mustRequest childCount constraints with
      | true => exact .inr (.inl rfl)
      | false =>
        have mounted := list.mounted_of_not_request childCount constraints request isLazy
        exact .inr (.inr (mounted.1 ▸ list.first_cached_le_visible childCount constraints))

/-- Three items of a lazy list, of which none is mounted, in front of the whole viewport. -/
def unmountedList : FixedExtentList where
  itemExtent := 10
  isLazy := true
  logicalChildCount := 3
  modelRevision := 1
  valid := by decide

def unmountedConstraints : SliverConstraints := ⟨0, 0, 30, 40, 30, by decide⟩

/-- A list that must ask for its children shows none of the items in view. -/
theorem unmounted_items_not_visible :
    ¬ ∀ (list : FixedExtentList) (childCount : Nat) (constraints : SliverConstraints) (index : Nat),
      (list.updateRanges childCount constraints).Visible index ↔
        0 < list.visibleExtent childCount constraints ∧ index < list.logicalCount childCount ∧
          (index : ℚ) * list.itemExtent <
            constraints.scrollOffset + list.visibleExtent childCount constraints ∧
          constraints.scrollOffset < ((index : ℚ) + 1) * list.itemExtent := by
  intro always
  have shown := (always unmountedList 0 unmountedConstraints 0).mpr (by decide +kernel)
  have none : (unmountedList.updateRanges 0 unmountedConstraints).visibleChildCount = 0 := by
    decide +kernel
  obtain ⟨first, last⟩ := shown
  omega

end Dui
