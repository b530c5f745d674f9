import Mathlib.Data.List.Duplicate
import Dui.ElementCourse
import Dui.ElementRegistry

/-! Reconciling the children of a `ForEach` by their keys: a child whose key stays is the
same element at its new place, one whose key goes is unmounted, and nothing is touched
when a key is given twice. -/
namespace Dui
open Effect BuildOwner Hierarchy

variable {α : Type}

/-- The item builder of a list type returns views of one type, as its C++ type says. -/
def Program.Makes [DecidableEq α] (program : Program α) (type : TypeToken)
    (childType : ViewKind × TypeToken) : Prop :=
  ∀ item owner view next, runBuild (program.item type item) owner = some (.ok view, next) →
    view.token = childType

/-- A child list as a `ForEach` has it: its keys are distinct and its elements of one type. -/
structure BuildOwner.Keyed (owner : BuildOwner α) (childType : ViewKind × TypeToken)
    (children : List ElementId) : Prop where
  distinct : (children.map (keyOf owner)).Nodup
  typed : ∀ child ∈ children, ∀ element, owner.registry child = some element →
    element.viewType = childType

namespace BuildOwner
variable {start owner next : BuildOwner α} {childType : ViewKind × TypeToken}

/-- An element that is still there has the key it had. -/
theorem Later.key_of (later : start.Later owner) {id : ElementId} (early : id < start.nextId)
    (there : (owner.registry id).isSome) : keyOf owner id = keyOf start id := by
  obtain ⟨after, stands⟩ := Option.isSome_iff_exists.mp there
  obtain ⟨before, stood, lasts⟩ := later.elements id after early stands
  simp only [keyOf, stands, stood]
  exact lasts.key

end BuildOwner

section Slot
variable [DecidableEq α] (program : Program α)

/-- The update of an element returns it, and what it comes to is later. -/
theorem update_child_later {fuel : Nat} {view : View α} {id child : ElementId}
    {first next : BuildOwner α} {outcome : Except Failure Unit} (issued : first.Issued)
    (ran : (do
      Run.change (·.beginUpdate id)
      let outcome ← Run.attempt (updateView program (reconcileChild program fuel) fuel id view)
      Run.change (·.endUpdate id)
      pure (id, outcome) : Building α (ElementId × Except Failure Unit)) first =
        some (.ok (child, outcome), next)) :
    child = id ∧ first.Later next := by
  have durable := (later_lasting program first).durable
  have later := durable.update_child (durable.reconcile_child fuel) fuel id view first _ next
    (.refl issued) ran
  rw [Run.change_ends_iff, Run.attempt_ends_iff] at ran
  obtain ⟨caught, middle, _, ran⟩ := ran
  rw [Run.change_ends_iff] at ran
  cases ran
  exact ⟨rfl, later⟩

/-- The element a view is reconciled with: the one in the slot if it has the view's type and
key, or else a new one of them. -/
theorem reconcile_child_slot {fuel : Nat} {slot parent : Option ElementId} {view : View α}
    {key : Key} {first next : BuildOwner α} {child : ElementId} {outcome : Except Failure Unit}
    (issued : first.Issued) (ran : reconcileChild program fuel slot view parent key first =
      some (.ok (child, outcome), next)) :
    (slot.filter (fits first view key) = some child ∨
      slot.filter (fits first view key) = none ∧ first.nextId ≤ child) ∧
    ∀ element, next.registry child = some element →
      element.key = key ∧ element.viewType = view.token := by
  cases fuel with
  | zero => cases ran
  | succ fuel =>
    -- a new element is made as the view asks, after the old one has gone
    have mounts : ∀ {middle : BuildOwner α}, first.Later middle → (do
        let id ← Run.read (·.nextId)
        Run.change (·.makeElement view.token key parent)
        Run.change (·.beginUpdate id)
        let outcome ← Run.attempt (updateView program (reconcileChild program fuel) fuel id view)
        Run.change (·.endUpdate id)
        pure (id, outcome) : Building α (ElementId × Except Failure Unit)) middle =
          some (.ok (child, outcome), next) →
        first.nextId ≤ child ∧ ∀ element, next.registry child = some element →
          element.key = key ∧ element.viewType = view.token := by
      intro middle later ran
      rw [Run.read_ends_iff, Run.change_ends_iff] at ran
      obtain ⟨rfl, updated⟩ := update_child_later program
        (later.makeElement view.token key parent).issued ran
      refine ⟨later.nextId, fun element stands => ?_⟩
      obtain ⟨made, stood, lasts⟩ :=
        updated.elements middle.nextId element (Nat.lt_succ_self _) stands
      simp only [makeElement, if_true] at stood
      cases stood
      exact ⟨lasts.key, lasts.viewType⟩
    rw [reconcileChild, Run.read_ends_iff] at ran
    cases chosen : slot.filter (fits first view key) with
    | some id =>
      rw [chosen] at ran
      obtain ⟨rfl, later⟩ := update_child_later program issued ran
      refine ⟨.inl rfl, fun element stands => ?_⟩
      have fit := (Option.filter_eq_some_iff.mp chosen).2
      unfold fits at fit
      split at fit
      · cases fit
      · rename_i before stood
        simp only [Bool.and_eq_true, decide_eq_true_eq] at fit
        have early := issued child (by simp [stood])
        obtain ⟨_, again, lasts⟩ := later.elements child element early stands
        cases stood.symm.trans again
        exact ⟨lasts.key.trans fit.2, lasts.viewType.trans fit.1⟩
    | none =>
      rw [chosen] at ran
      cases slot with
      | none =>
        obtain ⟨new, made⟩ := mounts (.refl issued) ran
        exact ⟨.inr ⟨rfl, new⟩, made⟩
      | some old =>
        obtain ⟨_, middle, freed, ran⟩ | ⟨_, _, thrown⟩ := Run.bind_ends_iff.mp ran
        · have later := (later_lasting program first).durable.unmount fuel old first _ middle
            (.refl issued) freed
          obtain ⟨new, made⟩ := mounts later ran
          exact ⟨.inr ⟨rfl, new⟩, made⟩
        · cases thrown

end Slot

/-- Where the loop over the items stands: the children of the keys that are done, and the
previous ones whose key is not. -/
structure BuildOwner.Matched (start : BuildOwner α) (childType : ViewKind × TypeToken)
    (children : List ElementId) (done : List Key) (next previous : List ElementId)
    (owner : BuildOwner α) : Prop where
  later : start.Later owner
  keys : next.map (keyOf owner) = done
  typed : ∀ child ∈ next, ∀ element, owner.registry child = some element →
    element.viewType = childType
  source : ∀ child ∈ next, child ∈ children ∨ start.nextId ≤ child
  left : ∀ child, child ∈ previous ↔ child ∈ children ∧ keyOf start child ∉ done
  kept : ∀ child ∈ children, keyOf start child ∈ done → child ∈ next

section Loop
variable {start : BuildOwner α} {childType : ViewKind × TypeToken} {children : List ElementId}

/-- What stands stays so while its elements are there. -/
theorem BuildOwner.Matched.carry {done : List Key} {next previous : List ElementId}
    {owner last : BuildOwner α}
    (matched : start.Matched childType children done next previous owner)
    (later : owner.Later last) (stood : ∀ other ∈ next, (owner.registry other).isSome)
    (stands : ∀ other ∈ next, (last.registry other).isSome) :
    start.Matched childType children done next previous last := by
  have early : ∀ other ∈ next, other < owner.nextId := fun other listed =>
    matched.later.issued other (stood other listed)
  refine { matched with later := matched.later.trans later, keys := ?_, typed := ?_ }
  · rw [← matched.keys]
    apply List.map_congr_left
    intro other listed
    exact later.key_of (early other listed) (stands other listed)
  · intro other listed after there
    obtain ⟨before, held, lasts⟩ := later.elements other after (early other listed) there
    exact lasts.viewType.trans (matched.typed other listed before held)

/-- One item: its child is the previous one of its key, or new if there is none. -/
theorem BuildOwner.Matched.step {done : List Key} {next previous remaining : List ElementId}
    {owner : BuildOwner α} {key : Key} {child : ElementId}
    (matched : start.Matched childType children done next previous owner)
    (keyed : start.Keyed childType children) (distinct : previous.Nodup)
    (chosen : (child ∈ previous ∧ keyOf start child = key ∧ remaining = previous.erase child) ∨
      ((∀ other ∈ previous, keyOf start other ≠ key) ∧ start.nextId ≤ child ∧
        remaining = previous))
    (new : key ∉ done) (made : ∃ element, owner.registry child = some element ∧
      element.key = key ∧ element.viewType = childType) :
    start.Matched childType children (done ++ [key]) (next ++ [child]) remaining owner := by
  obtain ⟨element, mounted, named, typed⟩ := made
  have alone : ∀ first ∈ children, ∀ second ∈ children,
      keyOf start first = keyOf start second → first = second :=
    fun first one second other => List.inj_on_of_nodup_map keyed.distinct one other
  refine ⟨matched.later, ?_, ?_, ?_, ?_, ?_⟩
  · rw [List.map_append, matched.keys]
    simp [keyOf, mounted, named]
  · intro other listed after there
    obtain listed | rfl := (List.mem_append.mp listed).imp_right List.mem_singleton.mp
    · exact matched.typed other listed after there
    · cases mounted.symm.trans there
      exact typed
  · intro other listed
    obtain listed | rfl := (List.mem_append.mp listed).imp_right List.mem_singleton.mp
    · exact matched.source other listed
    · obtain ⟨listed, _⟩ | ⟨_, fresh, _⟩ := chosen
      · exact .inl ((matched.left other).mp listed).1
      · exact .inr fresh
  · intro other
    rw [List.mem_append, List.mem_singleton, not_or]
    obtain ⟨listed, held, rfl⟩ | ⟨none, _, rfl⟩ := chosen
    · rw [distinct.mem_erase_iff, matched.left]
      have inside := ((matched.left child).mp listed).1
      constructor
      · rintro ⟨apart, there, undone⟩
        exact ⟨there, undone, fun same => apart (alone other there child inside
          (same.trans held.symm))⟩
      · rintro ⟨there, undone, apart⟩
        exact ⟨fun same => apart (same ▸ held), there, undone⟩
    · constructor
      · intro listed
        obtain ⟨there, undone⟩ := (matched.left other).mp listed
        exact ⟨there, undone, none other listed⟩
      · rintro ⟨there, undone, _⟩
        exact (matched.left other).mpr ⟨there, undone⟩
  · intro other there listed
    rw [List.mem_append, List.mem_singleton] at listed ⊢
    obtain listed | same := listed
    · exact .inl (matched.kept other there listed)
    · right
      obtain ⟨inside, held, _⟩ | ⟨none, _⟩ := chosen
      · exact alone other there child ((matched.left child).mp inside).1 (same.trans held.symm)
      · have undone : keyOf start other ∉ done := same ▸ new
        exact absurd same (none other ((matched.left other).mpr ⟨there, undone⟩))

variable {gone : ElementId → Prop} {root : Option ElementId} {hollow : List (Opening Listing)}
  {id : ElementId} {node : Node Listing}

/-- What is held is mounted. -/
theorem held_mounted {owner : BuildOwner α} {place : Option (ElementId × Node Listing)}
    {held : List ElementId} (housed : Housed gone root (⟨place, held⟩ :: hollow) owner)
    {child : ElementId} (listed : child ∈ held) : (owner.registry child).isSome := by
  obtain ⟨node, found, _⟩ := Placed.held_node housed listed
  obtain ⟨element, mounted, _⟩ := Option.map_eq_some_iff.mp found
  simp [mounted]

variable [DecidableEq α] (program : Program α)

/-- One item is reconciled, with the previous child of its key if there is one. -/
theorem item_matched {fuel : Nat} (keyed : start.Keyed childType children)
    (present : ∀ child ∈ children, (start.registry child).isSome) (issued : start.Issued)
    {done : List Key} {next previous remaining held rest : List ElementId}
    {owner middle : BuildOwner α} {key : Key} {view : View α} {found : Option ElementId}
    {child : ElementId} (matched : start.Matched childType children done next previous owner)
    (housed : Housed gone root (⟨some (id, node), held⟩ :: hollow) owner)
    (split : held.Perm (found.toList ++ rest)) (inside : ∀ other ∈ next, other ∈ rest)
    (spare : ∀ other ∈ previous, other ∈ held) (distinct : previous.Nodup)
    (typed : view.token = childType) (new : key ∉ done)
    (chosen : (∃ taken ∈ previous, found = some taken ∧ fits owner view key taken = true ∧
        remaining = previous.erase taken) ∨
      (found = none ∧ (∀ other ∈ previous, fits owner view key other = false) ∧
        remaining = previous))
    (reconciled : reconcileChild program fuel found view (some id) key owner =
      some (.ok (child, .ok ()), middle)) :
    start.Matched childType children (done ++ [key]) (next ++ [child]) remaining middle ∧
      Housed gone root (⟨some (id, node), child :: rest⟩ :: hollow) middle := by
  obtain ⟨slot, made⟩ := reconcile_child_slot program housed.all_issued reconciled
  obtain ⟨_, same, placed⟩ := (reconcile_child_placing program fuel).child view key split owner _
    middle housed reconciled
  cases same
  refine ⟨?_, placed⟩
  have stood : ∀ other ∈ next, (owner.registry other).isSome := fun other listed =>
    held_mounted housed (split.mem_iff.mpr (List.mem_append_right _ (inside other listed)))
  have stands : ∀ other ∈ next, (middle.registry other).isSome := fun other listed =>
    held_mounted placed (List.mem_cons_of_mem _ (inside other listed))
  obtain ⟨element, mounted⟩ := Option.isSome_iff_exists.mp
    (held_mounted placed List.mem_cons_self)
  obtain ⟨named, shows⟩ := made element mounted
  have later := (later_lasting program owner).durable.reconcile_child fuel _ view _ key owner
    _ middle (.refl housed.all_issued) reconciled
  refine (matched.carry later stood stands).step keyed distinct ?_ new
    ⟨element, mounted, named, shows.trans typed⟩
  obtain ⟨taken, listed, rfl, fit, rfl⟩ | ⟨rfl, unfit, rfl⟩ := chosen
  · -- the slot holds the child that fits, which is the one reconciled
    obtain chosen | ⟨none, _⟩ := slot
    · rw [Option.filter_some, if_pos fit] at chosen
      obtain rfl := Option.some.inj chosen
      have there := held_mounted housed (spare taken listed)
      have named : keyOf owner taken = key := by
        obtain ⟨element, mounted⟩ := Option.isSome_iff_exists.mp there
        simp only [fits, mounted, Bool.and_eq_true, decide_eq_true_eq] at fit
        simp only [keyOf, mounted]
        exact fit.2
      have early := issued taken (present taken ((matched.left taken).mp listed).1)
      exact .inl ⟨listed, (matched.later.key_of early there).symm.trans named, rfl⟩
    · rw [Option.filter_some, if_pos fit] at none
      cases none
  · obtain taken | ⟨_, fresh⟩ := slot
    · cases taken
    refine .inr ⟨fun other listed same => ?_, matched.later.nextId.trans fresh, rfl⟩
    obtain ⟨among, _⟩ := (matched.left other).mp listed
    obtain ⟨element, mounted⟩ := Option.isSome_iff_exists.mp
      (held_mounted housed (spare other listed))
    obtain ⟨before, stood, lasts⟩ := matched.later.elements other element
      (issued other (present other among)) mounted
    have named : before.key = key := by simpa [keyOf, stood] using same
    have shows := (keyed.typed other among before stood).trans typed.symm
    have misfit := unfit other listed
    simp [fits, mounted, lasts.key.trans named, lasts.viewType.trans shows] at misfit

/-- The loop over the items, by induction on them. -/
theorem reconcile_items_matched {fuel : Nat} (keyed : start.Keyed childType children)
    (present : ∀ child ∈ children, (start.registry child).isSome) (issued : start.Issued)
    (items : List (Key × View α)) : ∀ done next previous owner all left last,
    (done ++ items.map Prod.fst).Nodup → (∀ item ∈ items, item.2.token = childType) →
    start.Matched childType children done next previous owner →
    Housed gone root (⟨some (id, listing node [] node.info.keptAlive),
      next ++ previous ++ node.info.keptAlive⟩ :: hollow) owner →
    reconcileItems (reconcileChild program fuel) fuel id next previous items owner =
      some (.ok (all, left), last) →
    start.Matched childType children (done ++ items.map Prod.fst) all left last := by
  induction items with
  | nil =>
    intro done next previous owner all left last _ _ matched _ ran
    cases ran
    simpa using matched
  | cons item items ih =>
    obtain ⟨key, view⟩ := item
    intro done next previous owner all left last nodup typed matched housed ran
    rw [reconcileItems, Run.read_ends_iff] at ran
    obtain ⟨⟨child, outcome⟩, middle, reconciled, rest⟩ | ⟨_, _, thrown⟩ :=
      Run.bind_ends_iff.mp ran
    case inr => cases thrown
    cases outcome with
    | error failure =>
      have throws : ∀ remaining, Yields (fun _ => True) (do
          unmount fuel child
          Run.each (unmount fuel) remaining
          Run.each (unmount fuel) next
          setChildren id []
          Run.throw failure : Building α (List ElementId × List ElementId)) fun _ _ => False :=
        fun _ => Yields.skip fun _ => Yields.skip fun _ => Yields.skip fun _ =>
          Yields.skip fun _ => Yields.throw
      exact (throws _ middle _ last trivial rest).elim
    | ok =>
      have distinct : previous.Nodup :=
        (List.nodup_append.mp (List.nodup_append.mp (housed.holding _ List.mem_cons_self).1).1).2.1
      have new : key ∉ done := fun listed => by
        have apart := List.nodup_append.mp nodup
        exact apart.2.2 key listed key List.mem_cons_self rfl
      have go : ∀ remaining,
          previous.Perm ((previous.find? (fits owner view key)).toList ++ remaining) →
          ((∃ taken ∈ previous, previous.find? (fits owner view key) = some taken ∧
              fits owner view key taken = true ∧ remaining = previous.erase taken) ∨
            (previous.find? (fits owner view key) = none ∧
              (∀ other ∈ previous, fits owner view key other = false) ∧ remaining = previous)) →
          reconcileItems (reconcileChild program fuel) fuel id (next ++ [child]) remaining items
            middle = some (.ok (all, left), last) →
          start.Matched childType children (done ++ key :: items.map Prod.fst) all left last := by
        intro remaining split chosen rest
        have taken : (next ++ previous ++ node.info.keptAlive).Perm
            ((previous.find? (fits owner view key)).toList ++
              (next ++ remaining ++ node.info.keptAlive)) := by
          refine List.perm_iff_count.mpr fun other => ?_
          have same := split.count_eq other
          simp only [List.count_append] at same ⊢
          omega
        obtain ⟨stepped, placed⟩ := item_matched program keyed present issued matched housed taken
          (by simp +contextual) (by simp +contextual) distinct (typed _ List.mem_cons_self) new
          chosen reconciled
        have relisted : (child :: (next ++ remaining ++ node.info.keptAlive)).Perm
            (next ++ [child] ++ remaining ++ node.info.keptAlive) := by
          refine List.perm_iff_count.mpr fun other => ?_
          simp only [List.count_append, List.count_cons, List.count_nil]
          omega
        rw [List.append_cons]
        refine ih (done ++ [key]) (next ++ [child]) remaining middle all left last ?_
          (fun item listed => typed item (List.mem_cons_of_mem _ listed)) stepped
          (Housed.perm placed relisted) rest
        rwa [← List.append_cons]
      cases found : previous.find? (fits owner view key) with
      | none =>
        rw [found] at rest go
        have unfit : ∀ other ∈ previous, fits owner view key other = false := fun other listed =>
          Bool.not_eq_true _ ▸ List.find?_eq_none.mp found other listed
        exact go previous (List.Perm.refl _) (.inr ⟨rfl, unfit, rfl⟩) rest
      | some taken =>
        rw [found] at rest go
        have listed := List.mem_of_find?_eq_some found
        exact go (previous.erase taken) (List.perm_cons_erase listed)
          (.inl ⟨taken, listed, rfl, List.find?_some found, rfl⟩) rest

/-- Building the items: the keys as they are, each once, and views of the one type. -/
theorem build_items_returned {type : TypeToken} (makes : program.Makes type childType)
    (items : List (Key × α)) : ∀ pending views (owner last : BuildOwner α),
    (pending.map Prod.fst).Nodup → (∀ item ∈ pending, item.2.token = childType) →
    buildItems program type pending items owner = some (.ok views, last) →
    views.map Prod.fst = pending.map Prod.fst ++ items.map Prod.fst ∧
      (views.map Prod.fst).Nodup ∧ ∀ item ∈ views, item.2.token = childType := by
  induction items with
  | nil =>
    intro pending views owner last distinct typed ran
    cases ran
    exact ⟨by simp, distinct, typed⟩
  | cons item items ih =>
    obtain ⟨key, value⟩ := item
    intro pending views owner last distinct typed ran
    rw [buildItems] at ran
    split at ran
    · cases ran
    · rename_i fresh
      obtain ⟨view, middle, built, rest⟩ | ⟨_, _, thrown⟩ := Run.bind_ends_iff.mp ran
      case inr => cases thrown
      have new : key ∉ pending.map Prod.fst := by
        intro listed
        obtain ⟨other, inside, rfl⟩ := List.mem_map.mp listed
        exact fresh (List.any_eq_true.mpr ⟨other, inside, by simp⟩)
      have longer : ((pending ++ [(key, view)]).map Prod.fst).Nodup := by
        rw [List.map_append]
        exact List.Nodup.append distinct (List.nodup_singleton key) (by simpa using new)
      have wider : ∀ item ∈ pending ++ [(key, view)], item.2.token = childType := by
        intro other listed
        obtain listed | rfl := (List.mem_append.mp listed).imp_right List.mem_singleton.mp
        · exact typed other listed
        · exact makes value owner view middle built
      obtain ⟨keys, rest⟩ := ih _ views middle last longer wider rest
      exact ⟨by simpa using keys, rest⟩

/-- A `ForEach` that returns lists one child for each item, by the item's key. -/
theorem update_for_each_matched {fuel : Nat} {type : TypeToken} {items : List (Key × α)}
    {owner last : BuildOwner α} (makes : program.Makes type childType)
    (housed : Housed gone root (⟨some (id, node), node.info.all⟩ :: hollow) owner)
    (wide : node.info.kind.narrow = false) (keyed : owner.Keyed childType node.info.children)
    (ran : updateForEach program (reconcileChild program fuel) fuel id type items owner =
      some (.ok (), last)) :
    (items.map Prod.fst).Nodup ∧ ∃ all left after,
      owner.Matched childType node.info.children (items.map Prod.fst) all left last ∧
        Housed gone root (⟨some (id, listing node all node.info.keptAlive),
          all ++ node.info.keptAlive⟩ :: hollow) last ∧
        last.registry id = some after ∧ after.children = all ∧
        ∀ child ∈ left, child ∉ all ++ node.info.keptAlive := by
  have many : node.info.kind.narrow ≠ true := by simp [wide]
  have issued := housed.all_issued
  have durable := (later_lasting program owner).durable
  -- the items are built
  obtain ⟨views, built, buildRan, rest⟩ | ⟨_, _, thrown⟩ := Run.bind_ends_iff.mp ran
  case inr => cases thrown
  obtain ⟨keys, distinct, typed⟩ := build_items_returned program makes items [] views owner built
    List.nodup_nil (by simp) buildRan
  rw [List.map_nil, List.nil_append] at keys
  have laterBuilt := durable.build_items type items [] owner _ built (.refl issued) buildRan
  have housedBuilt := (build_items_neutral program type items []).housed owner _ built housed
    buildRan
  -- the previous children are taken out
  obtain ⟨previous, read, readRan, rest⟩ | ⟨_, _, thrown⟩ := Run.bind_ends_iff.mp rest
  case inr => cases thrown
  obtain ⟨_, same, previousSame, housedRead⟩ := children_of_open built _ read housedBuilt readRan
  cases same
  cases readRan
  obtain ⟨_, emptied, emptyRan, rest⟩ | ⟨_, _, thrown⟩ := Run.bind_ends_iff.mp rest
  case inr => cases thrown
  have laterEmptied := durable.set_children id [] _ _ emptied laterBuilt emptyRan
  obtain ⟨_, _, housedEmptied⟩ := set_children_open (fun narrow => absurd narrow many) built _
    emptied housedRead emptyRan
  -- the items are reconciled
  obtain ⟨⟨all, left⟩, matchedLast, itemsRan, rest⟩ | ⟨_, _, thrown⟩ := Run.bind_ends_iff.mp rest
  case inr => cases thrown
  rw [previousSame] at itemsRan
  have initially : owner.Matched childType node.info.children [] [] node.info.children emptied :=
    ⟨laterEmptied, rfl, by simp, by simp, by simp, by simp⟩
  have present : ∀ child ∈ node.info.children, (owner.registry child).isSome :=
    fun child listed => held_mounted housed (List.mem_append_left _ listed)
  have matched := reconcile_items_matched program keyed present issued views [] [] _ emptied all
    left matchedLast (by simpa using distinct) typed initially housedEmptied itemsRan
  have housedLast := (reconcile_items_places (reconcile_child_placing program fuel) fuel views []
    node.info.children emptied _ matchedLast housedEmptied itemsRan).2 all left rfl
  -- what is left over is unmounted
  obtain ⟨_, freed, freeRan, rest⟩ | ⟨_, _, thrown⟩ := Run.bind_ends_iff.mp rest
  case inr => cases thrown
  have split : (all ++ left ++ node.info.keptAlive).Perm (left ++ (all ++ node.info.keptAlive)) := by
    refine List.perm_iff_count.mpr fun other => ?_
    simp only [List.count_append]
    omega
  obtain ⟨_, _, housedFreed⟩ := unmount_each fuel left split matchedLast _ freed housedLast freeRan
  have laterFreed := Keeps.each (fun child =>
    (later_lasting program matchedLast).durable.unmount fuel child) left matchedLast _ freed
      (.refl housedLast.all_issued) freeRan
  have closes : Returns (Housed gone root (⟨some (id, listing node [] node.info.keptAlive),
      all ++ node.info.keptAlive⟩ :: hollow)) (setChildren id all : Building α Unit)
      fun _ => Housed gone root (⟨some (id, listing node all node.info.keptAlive),
        all ++ node.info.keptAlive⟩ :: hollow) :=
    set_children_open fun narrow => absurd narrow many
  obtain ⟨_, _, housedSet⟩ := closes freed _ last housedFreed rest
  have laterSet := (later_lasting program freed).durable.set_children id all freed _ last
    (.refl housedFreed.all_issued) rest
  have stood : ∀ other ∈ all, (matchedLast.registry other).isSome := fun other listed =>
    held_mounted housedLast (by simp [listed])
  have stands : ∀ other ∈ all, (last.registry other).isSome := fun other listed =>
    held_mounted housedSet (List.mem_append_left _ listed)
  have apart : ∀ child ∈ left, child ∉ all ++ node.info.keptAlive := by
    have once := (housedLast.holding _ List.mem_cons_self).1
    have twice := List.nodup_append.mp (split.nodup_iff.mp once)
    exact fun child listed there => twice.2.2 child listed child there rfl
  obtain ⟨after, mounted, same⟩ := housedSet.there
  refine ⟨keys ▸ distinct, all, left, after, ?_, housedSet, mounted, ?_, apart⟩
  · rw [← keys]
    exact matched.carry (laterFreed.trans laterSet) stood stands
  · exact congrArg (fun node : Node Listing => node.info.children) same

end Loop

/-! ### What an update comes to -/

/-- An element is the same, and holds the state it held where that has not been written. -/
def BuildOwner.Endures (owner next : BuildOwner α) (events : List ElementEvent)
    (id : ElementId) : Prop :=
  ∃ before after, owner.registry id = some before ∧ next.registry id = some after ∧
    before.Lasts after ∧ ∀ slot value, before.state slot = some value →
      .wrote id slot ∉ events → after.state slot = some value

/-- The children of a `ForEach` before and after an update to new keys. -/
structure KeyedUpdate (owner next : BuildOwner α) (events : List ElementEvent)
    (before after : List ElementId) (keys : List Key) : Prop where
  order : after.map (keyOf next) = keys
  kept : ∀ child ∈ before, keyOf owner child ∈ keys → child ∈ after ∧
    keyOf next child = keyOf owner child ∧ owner.Endures next events child ∧
    child ∉ unmountedIds events
  gone : ∀ child ∈ before, keyOf owner child ∉ keys → child ∉ after ∧
    next.registry child = none ∧ (unmountedIds events).count child = 1
  new : ∀ child ∈ after, keyOf next child ∉ before.map (keyOf owner) →
    owner.registry child = none ∧ (mountedIds events).count child = 1 ∧
    child ∉ unmountedIds events

section Update
variable {owner next : BuildOwner α} {events : List ElementEvent} {gone gone' : ElementId → Prop}
  {root root' : Option ElementId} {hollow hollow' : List (Opening Listing)} {id : ElementId}

namespace BuildOwner.Course

/-- An element that was there and is there endures. -/
theorem endures (course : owner.Course events next) (issued : owner.Issued)
    (stood : (owner.registry id).isSome) (stands : (next.registry id).isSome) :
    owner.Endures next events id := by
  obtain ⟨after, there⟩ := Option.isSome_iff_exists.mp stands
  obtain ⟨before, held, lasts⟩ := (course.later issued).elements id after (issued id stood) there
  exact ⟨before, after, held, there, lasts,
    fun slot value has unwritten => course.state_kept issued held there has unwritten⟩

/-- What is there at the end has not been unmounted. -/
theorem standing (course : owner.Course events next) (housed : Housed gone root hollow owner)
    (ends : Housed gone' root' hollow' next) (stands : (next.registry id).isSome) :
    id ∉ unmountedIds events := by
  intro listed
  have absent := ((course.unmounted_once housed ends).2 id listed).2
  rw [absent] at stands
  cases stands

/-- What was there and is not has been unmounted once. -/
theorem vanished (course : owner.Course events next) (housed : Housed gone root hollow owner)
    (ends : Housed gone' root' hollow' next) (stood : (owner.registry id).isSome)
    (absent : next.registry id = none) : (unmountedIds events).count id = 1 :=
  List.count_eq_one_of_mem (course.unmounted_once housed ends).1 (course.gone (.inl stood) absent)

/-- What is there under a new identity has been mounted once. -/
theorem appeared (course : owner.Course events next) (issued : owner.Issued)
    (new : owner.nextId ≤ id) (stands : (next.registry id).isSome) :
    (mountedIds events).count id = 1 := by
  obtain ⟨earlier, ids⟩ := course.mounted_ids
  have last := (course.later issued).issued id stands
  rw [ids]
  apply List.count_eq_one_of_mem List.nodup_range'
  rw [List.mem_range'_1, Nat.add_sub_cancel' earlier]
  exact ⟨new, last⟩

end BuildOwner.Course

/-- The children that are matched by their keys are kept, those left over gone, and the
others new. -/
theorem BuildOwner.Matched.update {childType : ViewKind × TypeToken} {keys : List Key}
    {all left : List ElementId} {node : Node Listing}
    (matched : owner.Matched childType node.info.children keys all left next)
    (course : owner.Course events next)
    (housed : Housed gone root (⟨some (id, node), node.info.all⟩ :: hollow) owner)
    (ends : Housed gone root (⟨some (id, listing node all node.info.keptAlive),
      all ++ node.info.keptAlive⟩ :: hollow) next)
    (apart : ∀ child ∈ left, child ∉ all ++ node.info.keptAlive) :
    KeyedUpdate owner next events node.info.children all keys := by
  have issued := housed.all_issued
  have stood : ∀ child ∈ node.info.children, (owner.registry child).isSome :=
    fun child listed => held_mounted housed (List.mem_append_left _ listed)
  have stands : ∀ child ∈ all, (next.registry child).isSome :=
    fun child listed => held_mounted ends (List.mem_append_left _ listed)
  refine ⟨matched.keys, ?_, ?_, ?_⟩
  · intro child listed key
    have listed' := matched.kept child listed key
    exact ⟨listed', matched.later.key_of (issued child (stood child listed)) (stands child listed'),
      course.endures issued (stood child listed) (stands child listed'),
      course.standing housed ends (stands child listed')⟩
  · intro child listed key
    have spare := apart child ((matched.left child).mpr ⟨listed, key⟩)
    have absent : next.registry child = none := by
      by_contra there
      obtain ⟨after, mounted⟩ := Option.ne_none_iff_exists'.mp there
      obtain ⟨before, held, lasts⟩ :=
        matched.later.elements child after (issued child (stood child listed)) mounted
      -- it still names the list as its parent's, so it would be held there
      obtain ⟨_, found, named, _⟩ := Placed.held_node housed (List.mem_append_left _ listed)
      obtain ⟨_, again, rfl⟩ := Option.map_eq_some_iff.mp found
      cases held.symm.trans again
      have names : Names next.shape child (some id) :=
        ⟨after.node, by simp [shape, mounted], lasts.parent.trans named⟩
      exact spare (((ends.holding _ List.mem_cons_self).2 child).mpr names)
    exact ⟨fun inside => spare (List.mem_append_left _ inside), absent,
      course.vanished housed ends (stood child listed) absent⟩
  · intro child listed key
    have fresh : owner.nextId ≤ child := by
      obtain old | fresh := matched.source child listed
      · have same := matched.later.key_of (issued child (stood child old)) (stands child listed)
        exact absurd (List.mem_map.mpr ⟨child, old, same.symm⟩) key
      · exact fresh
    have absent : owner.registry child = none := by
      by_contra there
      exact absurd (issued child (Option.isSome_iff_ne_none.mpr there)) (not_lt.mpr fresh)
    exact ⟨absent, course.appeared issued fresh (stands child listed),
      course.standing housed ends (stands child listed)⟩

/-- An update that is refused: the tree is as it was, and the children endure. -/
structure UpdateRefused (owner next : BuildOwner α) (events : List ElementEvent)
    (before : List ElementId) : Prop where
  shape : next.shape = owner.shape
  mounted : mountedIds events = []
  unmounted : unmountedIds events = []
  kept : ∀ child ∈ before, keyOf next child = keyOf owner child ∧
    owner.Endures next events child

/-- Where the shape of the tree stays nothing comes or goes. -/
theorem BuildOwner.Course.refused {before : List ElementId} (course : owner.Course events next)
    (issued : owner.Issued) (shape : next.shape = owner.shape)
    (stood : ∀ child ∈ before, (owner.registry child).isSome) :
    UpdateRefused owner next events before := by
  have nodes : ∀ child, (next.registry child).map Element.node =
      (owner.registry child).map Element.node :=
    fun child => congrFun (congrArg Shape.nodes shape) child
  refine ⟨shape, ?_, ?_, fun child listed => ?_⟩
  · have same : next.nextId = owner.nextId := congrArg Shape.nextId shape
    rw [course.mounted_ids.2, same, Nat.sub_self]
    rfl
  · have same : next.unmountCount = owner.unmountCount := congrArg Shape.removed shape
    have counted := course.unmount_count
    rw [same] at counted
    exact List.length_eq_zero_iff.mp (Nat.left_eq_add.mp counted)
  · have stands : (next.registry child).isSome := by
      have same := congrArg Option.isSome (nodes child)
      rw [Option.isSome_map, Option.isSome_map] at same
      exact same.trans (stood child listed)
    exact ⟨(course.later issued).key_of (issued child (stood child listed)) stands,
      course.endures issued (stood child listed) stands⟩

end Update

section Reconciliation
variable [DecidableEq α] (program : Program α)

/-- Items with a key that is given twice are not all built. -/
theorem build_items_refused {type : TypeToken} (items : List (Key × α)) :
    ∀ pending (owner last : BuildOwner α) outcome, (pending.map Prod.fst).Nodup →
      ¬ (pending.map Prod.fst ++ items.map Prod.fst).Nodup →
      buildItems program type pending items owner = some (outcome, last) →
      ∃ failure, outcome = .error failure ∧
        ((∀ item ∈ items, ∀ owner failure next,
          runBuild (program.item type item.2) owner ≠ some (.error failure, next)) →
        ∃ key, List.Duplicate key (pending.map Prod.fst ++ items.map Prod.fst) ∧
          failure = .logicError ("ForEach contains a duplicate key: " ++ key.toString)) := by
  induction items with
  | nil =>
    intro pending owner last outcome distinct twice ran
    rw [List.map_nil, List.append_nil] at twice
    exact absurd distinct twice
  | cons item items ih =>
    obtain ⟨key, value⟩ := item
    intro pending owner last outcome distinct twice ran
    rw [buildItems] at ran
    split at ran
    · rename_i found
      cases ran
      refine ⟨_, rfl, fun _ => ⟨key, ?_, rfl⟩⟩
      obtain ⟨other, inside, same⟩ := List.any_eq_true.mp found
      have listed : key ∈ pending.map Prod.fst :=
        List.mem_map.mpr ⟨other, inside, by simpa using same⟩
      rw [List.duplicate_iff_two_le_count, List.count_append]
      have once := List.one_le_count_iff.mpr listed
      have again : 1 ≤ (((key, value) :: items).map Prod.fst).count key :=
        List.one_le_count_iff.mpr List.mem_cons_self
      omega
    · rename_i fresh
      obtain ⟨view, middle, built, rest⟩ | ⟨failure, thrown, rfl⟩ := Run.bind_ends_iff.mp ran
      · have new : key ∉ pending.map Prod.fst := by
          intro listed
          obtain ⟨other, inside, rfl⟩ := List.mem_map.mp listed
          exact fresh (List.any_eq_true.mpr ⟨other, inside, by simp⟩)
        have longer : ((pending ++ [(key, view)]).map Prod.fst).Nodup := by
          rw [List.map_append]
          exact List.Nodup.append distinct (List.nodup_singleton key) (by simpa using new)
        have same : (pending ++ [(key, view)]).map Prod.fst ++ items.map Prod.fst =
            pending.map Prod.fst ++ ((key, value) :: items).map Prod.fst := by
          simp
        obtain ⟨failure, threw, named⟩ := ih _ middle last outcome longer (same ▸ twice) rest
        refine ⟨failure, threw, fun succeed => ?_⟩
        rw [← same]
        exact named fun item listed => succeed item (List.mem_cons_of_mem _ listed)
      · exact ⟨failure, rfl, fun succeed =>
          absurd thrown (succeed _ List.mem_cons_self owner failure last)⟩

/-- The update of a `ForEach`, whose children have keys of their own and elements of the one
type its items are built to. If it returns, the children are those of the new keys, in their
order: a key that stays keeps its element, one that goes is unmounted once, and one that comes
is mounted once. If a key is given twice the update throws and the tree is as it was. -/
theorem keyed_reconciliation {childType : ViewKind × TypeToken} {type : TypeToken}
    (makes : program.Makes type childType) (fuel : Nat) (items : List (Key × α))
    {gone : ElementId → Prop} {root : Option ElementId} {hollow : List (Opening Listing)}
    {owner next : BuildOwner α} {id : ElementId} {element : Element α}
    {outcome : Except Failure Unit} (housed : Housed gone root hollow owner)
    (mounted : owner.registry id = some element)
    (deep : ∀ opening ∈ hollow, opening.level ≤ element.depth)
    (list : element.viewType = (.forEach, type)) (keyed : owner.Keyed childType element.children)
    (ran : updateView program (reconcileChild program fuel) fuel id (.forEach type items) owner =
      some (outcome, next)) :
    (∃ events, owner.Course events next) ∧ ∀ events, owner.Course events next →
      (outcome = .ok () → ∃ after, next.registry id = some after ∧
        KeyedUpdate owner next events element.children after.children (items.map Prod.fst) ∧
        next.Keyed childType after.children) ∧
      (¬ (items.map Prod.fst).Nodup → UpdateRefused owner next events element.children ∧
        ∃ failure, outcome = .error failure ∧
          ((∀ item ∈ items, ∀ owner failure next,
            runBuild (program.item type item.2) owner ≠ some (.error failure, next)) →
          ∃ key, List.Duplicate key (items.map Prod.fst) ∧
            failure = .logicError ("ForEach contains a duplicate key: " ++ key.toString))) := by
  have opened := housed.push mounted deep
  have wide : element.node.info.kind.narrow = false := by
    simp [Element.node, list, ViewKind.narrow]
  have stood : ∀ child ∈ element.children, (owner.registry child).isSome :=
    fun child listed => held_mounted opened (List.mem_append_left _ listed)
  have durable := course_durable program owner
  refine ⟨?_, fun events course => ⟨?_, fun twice => ?_⟩⟩
  · exact durable.update_for_each (durable.reconcile_child fuel) fuel id type items owner _ next
      ⟨[], .start⟩ ran
  · rintro rfl
    obtain ⟨distinct, all, left, after, matched, ends, there, rfl, apart⟩ :=
      update_for_each_matched program makes opened wide keyed ran
    refine ⟨after, there, matched.update course opened ends apart, ⟨?_, matched.typed⟩⟩
    rwa [matched.keys]
  · obtain ⟨views, built, buildRan, _⟩ | ⟨failure, thrown, rfl⟩ := Run.bind_ends_iff.mp ran
    · obtain ⟨keys, distinct, _⟩ := build_items_returned program makes items [] views owner built
        List.nodup_nil (by simp) buildRan
      rw [keys] at distinct
      exact absurd distinct twice
    · have shape := build_items_neutral program type items [] owner.shape owner _ next rfl thrown
      obtain ⟨_, same, named⟩ := build_items_refused program items [] owner next _ List.nodup_nil
        twice thrown
      cases same
      exact ⟨course.refused housed.all_issued shape stood, failure, rfl, named⟩

end Reconciliation

/-- Of three items in a list one goes, one comes and the others change places. -/
theorem keyed_reconciliation_list : ∃ (owner next : BuildOwner Nat) (events : List ElementEvent)
    (before after : List ElementId), owner.Course events next ∧
      before.map (keyOf owner) = [.unsigned 0, .unsigned 1, .unsigned 2] ∧
      KeyedUpdate owner next events before after [.unsigned 2, .unsigned 3, .unsigned 0] := by
  have computed : ((performEach listScript {}).bind fun owner =>
      (owner.registry 4).bind fun element =>
      (updateView listProgram (reconcileChild listProgram 20) 20 4
        (.forEach 0 [(.unsigned 2, 2), (.unsigned 3, 3), (.unsigned 0, 0)]) owner).map fun ended =>
        (element.viewType, element.children.map (keyOf owner), element.children.all fun child =>
          (owner.registry child).all (·.viewType = (.component, 1)), ended.1.toOption)) =
      some ((.forEach, 0), [.unsigned 0, .unsigned 1, .unsigned 2], true, some ()) := by
    decide +kernel
  obtain ⟨owner, ran, computed⟩ := Option.bind_eq_some_iff.mp computed
  obtain ⟨element, mounted, computed⟩ := Option.bind_eq_some_iff.mp computed
  obtain ⟨⟨outcome, next⟩, updated, shown⟩ := Option.map_eq_some_iff.mp computed
  simp only [Prod.mk.injEq] at shown
  obtain ⟨list, keys, typed, returned⟩ := shown
  have ok : outcome = .ok () := by
    cases outcome with
    | ok => rfl
    | error => cases returned
  obtain ⟨root, settled⟩ :=
    each_orderly listScript {} owner ⟨none, settled_initially⟩ ran
  have makes : listProgram.Makes 0 (.component, 1) := by
    intro item owner view next built
    cases built
    rfl
  have keyed : owner.Keyed (.component, 1) element.children := by
    refine ⟨keys ▸ by decide, fun child listed other there => ?_⟩
    have shows := List.all_eq_true.mp typed child listed
    simpa [there] using shows
  have deep : ∀ opening ∈ [(⟨none, root.toList⟩ : Opening Listing)],
      opening.level ≤ element.depth := by
    simp [Opening.level]
  obtain ⟨⟨events, course⟩, exact⟩ := keyed_reconciliation listProgram makes 20 _ settled mounted
    deep list keyed updated
  obtain ⟨after, _, update, _⟩ := (exact events course).1 ok
  exact ⟨owner, next, events, element.children, after.children, course, keys, update⟩

end Dui
