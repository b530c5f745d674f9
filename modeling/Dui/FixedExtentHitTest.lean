import Dui.FixedExtentRanges
import Dui.HitTest
import Dui.RenderRuns

/-! Hit testing in a fixed-extent list. The one child that is tested is the one that a scan of
the visible children comes to: the others do not contain the position. -/
namespace Dui
open Bisect HitTesting LayoutScript Transition

/-! Scans. -/

section Scan
variable {hitTest : RenderId → Offset → HitTesting} {offsetOf : RenderId → Offset}
  {position : Offset}

theorem branch_miss (hit missed : HitTesting) : branch miss hit missed = missed := by
  funext result
  simp [branch, miss]

theorem branch_self (test : HitTesting) :
    branch test (fun result => some (true, result)) miss = test := by
  funext result
  unfold branch miss
  cases test result with
  | none => rfl
  | some found =>
    obtain ⟨hit, path⟩ := found
    cases hit <;> rfl

/-- Children that do not contain the position are passed over. -/
theorem scan_misses (children : List RenderId)
    (misses : ∀ child ∈ children, hitTest child (position - offsetOf child) = miss) :
    scanChildren hitTest offsetOf position children = miss := by
  induction children with
  | nil => rfl
  | cons child rest ih =>
    rw [scanChildren, misses child List.mem_cons_self, branch_miss]
    exact ih fun other listed => misses other (List.mem_cons_of_mem _ listed)

/-- A scan comes to the one child that may contain the position. -/
theorem scan_one {target : RenderId} (children : List RenderId) (distinct : children.Nodup)
    (listed : target ∈ children)
    (misses : ∀ child ∈ children, child ≠ target →
      hitTest child (position - offsetOf child) = miss) :
    scanChildren hitTest offsetOf position children =
      hitTest target (position - offsetOf target) := by
  induction children with
  | nil => cases listed
  | cons child rest ih =>
    obtain ⟨absent, distinct⟩ := List.nodup_cons.mp distinct
    have later : ∀ other ∈ rest, other ≠ target →
        hitTest other (position - offsetOf other) = miss :=
      fun other among => misses other (List.mem_cons_of_mem _ among)
    rw [scanChildren]
    by_cases here : child = target
    · subst here
      rw [scan_misses rest fun other among => later other among fun same => absent (same ▸ among)]
      exact branch_self _
    · rw [misses child List.mem_cons_self here, branch_miss]
      exact ih distinct ((List.mem_cons.mp listed).resolve_left (Ne.symm here)) later

end Scan

/-! What layout leaves of a list and its visible children. -/

section Laid
variable {objects : RenderId → Option RenderObject} {list : FixedExtentList}
  {constraints : SliverConstraints} {childConstraints : BoxConstraints} {object : RenderObject}

theorem items_lay (visible : List RenderId) (start : Nat) :
    (visible.foldlM (fun childIndex child => do
      let _ ← layoutBoxChild child childConstraints (list.itemOffset constraints childIndex)
      pure (childIndex + 1)) start : LayoutScript Nat).Lays (.fixedExtentList list) visible
        fun _ left => left = [] := by
  refine lays_fold (fun childIndex child rest => ?_) visible start
  rw [lays_bind]
  exact layout_box_child_lays fun _ => rfl

/-- The visible children are laid out one after the other, each as an item of the list. -/
theorem settles_items {post : Nat → Prop} (visible : List RenderId) : ∀ start,
    (visible.foldlM (fun childIndex child => do
      let _ ← layoutBoxChild child childConstraints (list.itemOffset constraints childIndex)
      pure (childIndex + 1)) start : LayoutScript Nat).Settles objects post →
    ∀ index child, visible[index]? = some child → ∃ laid, objects child = some laid ∧
      laid.needsLayout = false ∧ laid.constraints = some (.box childConstraints) ∧
      laid.offset = list.itemOffset constraints (start + index) := by
  induction visible with
  | nil =>
    intro start _ index child found
    cases found
  | cons first rest ih =>
    intro start settles index child found
    rw [List.foldlM_cons, settles_bind] at settles
    obtain ⟨laid, there, clean, under, placed, settles⟩ := settles
    cases index with
    | zero =>
      cases found
      exact ⟨laid, there, clean, under, placed⟩
    | succ index =>
      rw [Nat.add_comm index 1, ← Nat.add_assoc]
      exact ih (start + 1) settles index child found

theorem clamp_tight (value bound : ℚ) : clamp value bound (bound : Extent) = bound := by
  unfold clamp
  split
  · rfl
  · rename_i least
    change (if bound < value then bound else value) = bound
    split
    · rfl
    · rename_i greatest
      exact le_antisymm (not_lt.mp greatest) (not_lt.mp least)

/-- A box that is laid out under tight constraints has the size they give. -/
theorem tight_size {width height : ℚ} (current : object.Current objects)
    (under : object.constraints = some (.box childConstraints))
    (tight : BoxConstraints.checked width width height height = .ok childConstraints) :
    object.measure.size = ⟨width, height⟩ ∧ object.kind.isBox = true := by
  obtain ⟨_, same, settles⟩ := current
  cases under.symm.trans same
  unfold RenderObject.script at settles
  rw [settles_bind] at settles
  constructor
  · obtain ⟨laid, _, ended, _⟩ := settles.ends (layout_lays object.kind (.box childConstraints))
    obtain ⟨_, settled, measured, _⟩ := settles_lift.mp ended
    rw [← measured]
    unfold BoxConstraints.checked at tight
    split at tight
    case isFalse => cases tight
    cases tight
    simp only [settleMeasure, BoxConstraints.constrain] at settled
    split at settled
    · cases settled
    · cases settled
      exact congrArg₂ Size.mk (clamp_tight _ _) (clamp_tight _ _)
  · cases kind : object.kind with
    | sliverToBoxAdapter =>
      rw [kind] at settles
      exact settles.elim
    | fixedExtentList list =>
      rw [kind] at settles
      exact settles.elim
    | _ => rfl

/-- The visible children are laid out as items of the list, each under the constraints that
give it the size of one. -/
structure Itemized (objects : RenderId → Option RenderObject) (object : RenderObject)
    (list : FixedExtentList) (constraints : SliverConstraints)
    (childConstraints : BoxConstraints) : Prop where
  tight : BoxConstraints.checked constraints.crossAxisExtent constraints.crossAxisExtent
    list.itemExtent list.itemExtent = .ok childConstraints
  items : ∀ index child, object.paintChildren[index]? = some child →
    ∃ laid, objects child = some laid ∧ laid.needsLayout = false ∧
      laid.constraints = some (.box childConstraints) ∧
      laid.offset = list.itemOffset constraints (list.firstVisibleChild + index)

/-- A list that is laid out has the ranges and the geometry of its layout, and its visible
children are its items. -/
theorem list_settled (current : object.Current objects)
    (kind : object.kind = .fixedExtentList list) : ∃ constraints,
    object.constraints = some (.sliver constraints) ∧
      list.updateRanges object.children.length constraints = list ∧
      (list.mustRequest object.children.length constraints = true ∧
          object.measure.geometry.hitTestExtent = 0 ∨
        list.mustRequest object.children.length constraints = false ∧
          object.measure.geometry.hitTestExtent =
            list.visibleExtent object.children.length constraints ∧
          ∃ childConstraints, Itemized objects object list constraints childConstraints) := by
  obtain ⟨constraints, under, settles⟩ := current
  unfold RenderObject.script at settles
  rw [settles_bind, kind] at settles
  cases constraints with
  | box constraints => exact settles.elim
  | sliver constraints =>
    refine ⟨constraints, under, ?_⟩
    -- what is measured is kept, and what it is measured for is the list itself
    have recorded : ∀ {geometry ranged},
        (lift (settleMeasure { measure := { geometry }, kind := .fixedExtentList ranged }
          (.sliver constraints))).Settles objects (fun laid =>
            laid.measure = object.measure ∧ laid.kind = .fixedExtentList list) →
        ranged = list ∧ object.measure.geometry = geometry := by
      intro geometry ranged ended
      obtain ⟨_, settled, measured, same⟩ := settles_lift.mp ended
      unfold settleMeasure at settled
      dsimp only at settled
      split at settled
      · cases settled
      · cases settled
        cases same
        exact ⟨rfl, congrArg Measure.geometry measured.symm⟩
    have geometry_of : ∀ {extent geometry},
        list.geometry object.children.length constraints extent = .ok geometry →
        geometry.hitTestExtent = extent := by
      intro extent geometry checked
      unfold FixedExtentList.geometry SliverGeometry.checked at checked
      dsimp only at checked
      split at checked
      · cases checked
        rfl
      · cases checked
    have performs : performLayout (.fixedExtentList list) (.sliver constraints) object.children =
        (performFixedExtentList list constraints object.children >>= fun ended =>
          pure { measure := { geometry := ended.1 }, kind := .fixedExtentList ended.2 }) := rfl
    rw [performs, settles_bind, performFixedExtentList] at settles
    dsimp only [Settles] at settles
    split at settles
    · rename_i requests
      rw [settles_bind] at settles
      obtain ⟨geometry, checked, ended⟩ := settles_lift.mp settles
      obtain ⟨ranged, measured⟩ := recorded ended
      exact ⟨ranged, .inl ⟨requests, measured ▸ geometry_of checked⟩⟩
    · rename_i mounted
      rw [settles_bind] at settles
      obtain ⟨childConstraints, tight, settles⟩ := settles_lift.mp settles
      rw [settles_bind] at settles
      have items := settles_items _ _ settles
      obtain ⟨_, _, ended, _⟩ := settles.ends (items_lay _ _)
      rw [settles_bind] at ended
      obtain ⟨geometry, checked, ended⟩ := settles_lift.mp ended
      obtain ⟨ranged, measured⟩ := recorded ended
      change list.updateRanges object.children.length constraints = list at ranged
      refine ⟨ranged, .inr ⟨by simpa using mounted, measured ▸ geometry_of checked,
        childConstraints, tight, fun index child found => ?_⟩⟩
      rw [ranged] at items
      apply items index child
      rw [← found]
      simp only [RenderObject.paintChildren, RenderObject.paintChildRange, kind,
        FixedExtentList.paintChildRange, List.drop_take, Nat.add_sub_cancel_left]

end Laid

/-- The item at a position that is shown. -/
theorem item_at_position {scrollOffset position itemExtent : ℚ} {count : Nat}
    (positive : 0 < itemExtent) (scrolled : 0 ≤ scrollOffset) (inside : 0 ≤ position)
    (shown : scrollOffset + position < count * itemExtent) :
    itemAtViewportPosition scrollOffset position itemExtent count < count ∧
      (itemAtViewportPosition scrollOffset position itemExtent count : ℚ) * itemExtent ≤
        scrollOffset + position ∧
      scrollOffset + position <
        ((itemAtViewportPosition scrollOffset position itemExtent count : ℚ) + 1) * itemExtent := by
  have counted := @lt_starts_until_iff itemExtent positive scrollOffset position count
  unfold itemAtViewportPosition
  dsimp only
  generalize boundary (fun middle => decide ((middle : ℚ) * itemExtent - scrollOffset ≤ position))
    count = first at counted
  have some : 0 < count := by
    by_contra none
    rw [Nat.eq_zero_of_not_pos none, Nat.cast_zero, zero_mul] at shown
    linarith
  have begun : 0 < first := counted.mpr ⟨some, by
    rw [Nat.cast_zero, zero_mul]
    linarith⟩
  obtain ⟨among, starts⟩ := counted.mp (Nat.sub_one_lt begun.ne')
  have next : ((first - 1 : Nat) : ℚ) + 1 = (first : ℚ) := by
    exact_mod_cast congrArg (Nat.cast : Nat → ℚ) (Nat.sub_add_cancel begun)
  rw [if_neg begun.ne', next]
  refine ⟨among, starts, ?_⟩
  by_cases last : first < count
  · by_contra ended
    exact absurd (counted.mpr ⟨last, not_lt.mp ended⟩) (lt_irrefl first)
  · have final : first = count := by omega
    rwa [final]

/-- A position in one item is not in another. -/
theorem items_apart {position itemExtent : ℚ} {item other : Nat} (positive : 0 < itemExtent)
    (starts : (item : ℚ) * itemExtent ≤ position)
    (ends : position < ((item : ℚ) + 1) * itemExtent) (apart : other ≠ item) :
    position - (other : ℚ) * itemExtent < 0 ∨ itemExtent ≤ position - (other : ℚ) * itemExtent := by
  obtain earlier | later := Nat.lt_or_gt_of_ne apart
  · right
    have next : (other : ℚ) + 1 ≤ item := by exact_mod_cast earlier
    have bound := mul_le_mul_of_nonneg_right next positive.le
    linarith
  · left
    have next : (item : ℚ) + 1 ≤ other := by exact_mod_cast later
    have bound := mul_le_mul_of_nonneg_right next positive.le
    linarith

section HitTest
variable {owner : RenderOwner} {id child : RenderId} {object laid : RenderObject}
  {list : FixedExtentList} {position : Offset}

/-- A box is missed by a position that it does not contain. -/
theorem hit_test_misses (fuel : Nat) (found : owner.objects child = some laid)
    (box : laid.kind.isBox = true) (outside : laid.measure.size.contains position = false) :
    owner.hitTest (fuel + 1) child position = miss := by
  have misses : ∀ test, owner.hitTestBox test child laid position = miss := by
    intro test
    rw [RenderOwner.hitTestBox, outside, if_neg Bool.false_ne_true]
  rw [RenderOwner.hitTest, found]
  cases kind : laid.kind with
  | sliverToBoxAdapter =>
    rw [kind] at box
    cases box
  | fixedExtentList list =>
    rw [kind] at box
    cases box
  | _ =>
    simp only [kind]
    exact misses _

/-- What a list that is mounted has set: where its visible children begin, and what item each
of them is. -/
theorem ranged_fields {count : Nat} {constraints : SliverConstraints}
    (ranged : list.updateRanges count constraints = list)
    (mounted : list.mustRequest count constraints = false) :
    list.firstVisibleIndex = list.firstVisible count constraints ∧
      list.visibleChildCount = list.visibleCount count constraints ∧
      (list.isLazy = true → list.firstMountedIndex ≤ list.firstVisibleIndex) ∧
      list.firstVisibleChild =
        (if list.isLazy then list.firstVisibleIndex - list.firstMountedIndex
          else list.firstVisibleIndex) ∧
      ∀ index, list.logicalIndex (list.firstVisibleChild + index) =
        list.firstVisibleIndex + index := by
  have unchanged : ¬ list.mustRequest count constraints = true := by simp [mounted]
  rw [FixedExtentList.updateRanges, if_neg unchanged] at ranged
  have first := congrArg FixedExtentList.firstVisibleIndex ranged
  have child := congrArg FixedExtentList.firstVisibleChild ranged
  have visible := congrArg FixedExtentList.visibleChildCount ranged
  dsimp only at first child visible
  rw [first] at child
  have cached : list.isLazy = true → list.firstMountedIndex ≤ list.firstVisibleIndex := by
    intro isLazy
    rw [(list.mounted_of_not_request count constraints mounted isLazy).1, ← first]
    exact list.first_cached_le_visible count constraints
  refine ⟨first.symm, visible.symm, cached, child.symm, fun index => ?_⟩
  unfold FixedExtentList.logicalIndex
  rw [← child]
  split
  · have mounts := cached ‹_›
    omega
  · rfl

/-- The child painted at a position of the painted ones. -/
theorem paint_children_at (kind : object.kind = .fixedExtentList list) {index : Nat}
    (inside : index < list.visibleChildCount) : object.paintChildren[index]? =
      object.children[list.firstVisibleChild + index]? := by
  simp only [RenderObject.paintChildren, RenderObject.paintChildRange, kind,
    FixedExtentList.paintChildRange, List.getElem?_drop]
  exact List.getElem?_take_of_lt (Nat.add_lt_add_left inside _)

/-- What is shown ends with the items. -/
theorem visible_extent_shown {count : Nat} {constraints : SliverConstraints}
    (positive : 0 < list.visibleExtent count constraints) :
    list.visibleExtent count constraints ≤ list.scrollExtent count - constraints.scrollOffset := by
  unfold FixedExtentList.visibleExtent at positive ⊢
  have left : 0 < list.scrollExtent count - constraints.scrollOffset := by
    by_contra none
    rw [max_eq_left (not_lt.mp none)] at positive
    exact absurd (positive.trans_le (min_le_left _ _)) (lt_irrefl 0)
  rw [max_eq_right left.le]
  exact min_le_left _ _

section Items
variable {constraints : SliverConstraints} {childConstraints : BoxConstraints} {index : Nat}

theorem Itemized.offset_of
    (itemized : Itemized owner.objects object list constraints childConstraints)
    (painted : object.paintChildren[index]? = some child) :
    owner.offsetOf child = list.itemOffset constraints (list.firstVisibleChild + index) := by
  obtain ⟨laid, there, _, _, placed⟩ := itemized.items index child painted
  simp [RenderOwner.offsetOf, there, placed]

/-- The items that are not at the position are missed: they end above it or start below. -/
theorem Itemized.missed (current : owner.Current)
    (itemized : Itemized owner.objects object list constraints childConstraints) (fuel : Nat)
    {place item : Nat} (painted : object.paintChildren[place]? = some child)
    (logical : list.logicalIndex (list.firstVisibleChild + place) ≠ item)
    (starts : (item : ℚ) * list.itemExtent ≤ constraints.scrollOffset + position.y)
    (ends : constraints.scrollOffset + position.y < ((item : ℚ) + 1) * list.itemExtent) :
    owner.hitTest (fuel + 1) child (position - owner.offsetOf child) = miss := by
  obtain ⟨laid, there, clean, under, _⟩ := itemized.items place child painted
  obtain ⟨size, box⟩ := tight_size (current child laid there clean) under itemized.tight
  apply hit_test_misses fuel there box
  have height : (position - list.itemOffset constraints (list.firstVisibleChild + place)).y =
      constraints.scrollOffset + position.y -
        (list.logicalIndex (list.firstVisibleChild + place) : ℚ) * list.itemExtent := by
    change position.y - ((list.logicalIndex (list.firstVisibleChild + place) : ℚ) *
      list.itemExtent - constraints.scrollOffset) = _
    linarith
  rw [size, itemized.offset_of painted]
  simp only [Size.contains, height, Bool.and_eq_false_iff, decide_eq_false_iff_not, not_le,
    not_lt]
  obtain before | after := items_apart list.valid.1 starts ends logical
  · exact .inl (.inl (.inr before))
  · exact .inr after

/-- The index of an item among the children that are mounted. -/
theorem mounted_index
    (mounts : list.isLazy = true → list.firstMountedIndex ≤ list.firstVisibleIndex)
    (begins : list.firstVisibleChild =
      if list.isLazy then list.firstVisibleIndex - list.firstMountedIndex
      else list.firstVisibleIndex) :
    (if list.isLazy then list.firstVisibleIndex + index - list.firstMountedIndex
      else list.firstVisibleIndex + index) = list.firstVisibleChild + index := by
  rw [begins]
  split
  · have lower := mounts ‹_›
    omega
  · rfl

end Items

/-- For every list that is laid out, and every position, testing the one child at the position
is scanning the visible children, the last one first. -/
theorem fixed_extent_hit_test (reached : Reachable renderMachine owner)
    (found : owner.objects id = some object) (kind : object.kind = .fixedExtentList list)
    (clean : object.needsLayout = false) (fuel : Nat) (position : Offset) :
    owner.hitTestFixedExtentList (owner.hitTest (fuel + 1)) id object list position =
      owner.hitTestSliver (owner.hitTest (fuel + 1)) id object object.paintChildren position := by
  have orderly := orderly_reached reached
  obtain ⟨constraints, under, ranged, settled⟩ :=
    list_settled (orderly.current id object found clean) kind
  unfold RenderOwner.hitTestFixedExtentList RenderOwner.hitTestSliver
  rw [under]
  cases contained : RenderOwner.sliverContains object position with
  | false => simp
  | true =>
    unfold RenderOwner.sliverContains at contained
    rw [under] at contained
    simp only [Bool.and_eq_true, decide_eq_true_eq] at contained
    obtain ⟨⟨⟨_, _⟩, above⟩, shown⟩ := contained
    obtain ⟨_, hidden⟩ | ⟨mounted, extent, childConstraints, itemized⟩ := settled
    · rw [hidden] at shown
      exact absurd (above.trans_lt shown) (lt_irrefl 0)
    rw [extent] at shown
    obtain ⟨first, visible, mounts, begins, logical⟩ := ranged_fields ranged mounted
    -- the item at the position is one of the visible ones
    have extent := visible_extent_shown (above.trans_lt shown)
    obtain ⟨among, starts, ends⟩ := item_at_position list.valid.1 constraints.valid.1 above
      (by
        unfold FixedExtentList.scrollExtent at extent
        linarith :
        constraints.scrollOffset + position.y <
          (list.logicalCount object.children.length : ℚ) * list.itemExtent)
    dsimp only
    generalize itemAtViewportPosition constraints.scrollOffset position.y list.itemExtent
      (list.logicalCount object.children.length) = candidate at among starts ends ⊢
    have edges := (list.visible_iff object.children.length constraints candidate).mpr
      ⟨above.trans_lt shown, among, by linarith, by linarith⟩
    rw [← first, ← visible] at edges
    obtain ⟨later, earlier⟩ := edges
    obtain ⟨index, rfl⟩ := Nat.exists_eq_add_of_le later
    have inside : index < list.visibleChildCount := Nat.lt_of_add_lt_add_left earlier
    have bound : list.firstVisibleChild + list.visibleChildCount ≤ object.children.length := by
      have valid := (list.paint_child_range_valid object.children.length constraints).2
      rwa [ranged] at valid
    have member : list.firstVisibleChild + index < object.children.length := by omega
    have held : object.children[list.firstVisibleChild + index]? =
        some object.children[list.firstVisibleChild + index] := List.getElem?_eq_getElem member
    have painted := (paint_children_at kind inside).trans held
    -- so the child that is tested is that of the item
    have wraps : ¬ (list.isLazy = true ∧
        list.firstVisibleIndex + index < list.firstMountedIndex) := fun ⟨isLazy, before⟩ =>
      absurd (mounts isLazy) (not_le.mpr (Nat.lt_of_le_of_lt (Nat.le_add_right _ index) before))
    have visibleItem : ¬ (list.firstVisibleIndex + index < list.firstVisibleIndex ∨
        list.firstVisibleIndex + index ≥ list.firstVisibleIndex + list.visibleChildCount) := by
      omega
    have visibleChild : ¬ list.firstVisibleChild + index ≥
        list.firstVisibleChild + list.visibleChildCount := by
      omega
    rw [if_neg (by simp [clean, bound]), if_neg visibleItem, if_neg wraps,
      mounted_index mounts begins, if_neg visibleChild, held, if_pos rfl]
    generalize object.children[list.firstVisibleChild + index] = child at painted
    have local' : (⟨position.x, position.y - (owner.offsetOf child).y⟩ : Offset) =
        position - owner.offsetOf child := by
      rw [itemized.offset_of painted]
      exact congrArg₂ Offset.mk (sub_zero position.x).symm rfl
    dsimp only
    rw [local']
    -- and the scan passes over the others
    have distinct : object.paintChildren.reverse.Nodup := by
      have children := orderly.sound.distinct (tree_of_object found)
      rw [unlaid_children] at children
      exact List.nodup_reverse.mpr
        (children.sublist ((List.drop_sublist _ _).trans (List.take_sublist _ _)))
    have listed : child ∈ object.paintChildren.reverse :=
      List.mem_reverse.mpr (List.mem_of_getElem? painted)
    rw [scan_one _ distinct listed]
    intro other others apart
    obtain ⟨place, shows⟩ := List.getElem?_of_mem (List.mem_reverse.mp others)
    have elsewhere : place ≠ index := by
      rintro rfl
      exact apart (Option.some.inj (shows.symm.trans painted))
    refine itemized.missed orderly.current fuel shows ?_ starts ends
    rw [logical place]
    omega

/-- Two texts in a list, of which the position hits the second. -/
theorem second_item_hit : ∃ owner object list, Reachable renderMachine owner ∧
    owner.objects 3 = some object ∧ object.kind = .fixedExtentList list ∧
    owner.hitTestSliver (owner.hitTest 1) 3 object object.paintChildren ⟨1, 12⟩ [] =
      some (true, [⟨5, ⟨1, 2⟩⟩, ⟨3, ⟨1, 12⟩⟩]) := by
  let list : FixedExtentList := { itemExtent := 10, visibleChildCount := 2, valid := by decide }
  have computed : ((renderMachine.run RenderOwner.initially
      [.construct (.viewport 0), .construct (.fixedExtentList 10), .construct (.text "a" false),
        .construct (.text "b" false), .setChildren 3 [some 4, some 5],
        .setChildren 2 [some 3], .setChildren 1 [some 2],
        .layout { maxWidth := (20 : ℚ), maxHeight := (15 : ℚ),
                  valid := by decide +kernel }]).bind fun owner =>
      (owner.objects 3).map fun object => (object.kind, object.needsLayout,
        owner.hitTestFixedExtentList (owner.hitTest 1) 3 object list ⟨1, 12⟩ [])) =
      some (.fixedExtentList list, false, some (true, [⟨5, ⟨1, 2⟩⟩, ⟨3, ⟨1, 12⟩⟩])) := by
    decide +kernel
  obtain ⟨owner, ran, computed⟩ := Option.bind_eq_some_iff.mp computed
  obtain ⟨object, found, computed⟩ := Option.map_eq_some_iff.mp computed
  have reached : Reachable renderMachine owner := Reachable.run (.start rfl) ran
  simp only [Prod.mk.injEq] at computed
  obtain ⟨kind, clean, hit⟩ := computed
  refine ⟨owner, object, list, reached, found, kind, ?_⟩
  rw [← fixed_extent_hit_test reached found kind clean 0]
  exact hit

end HitTest

end Dui
