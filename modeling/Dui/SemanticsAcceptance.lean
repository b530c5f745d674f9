import Dui.SemanticsMirror

/-! Which trees the semantics differ accepts, and how the entries of an accepted tree tell
its hierarchy: the entries of a node's children name the node and their places among its
children. -/
namespace Dui
open ForestEdit

mutual
/-- The nodes of a subtree with their places, in depth-first order. -/
def nodePlaces (parentId : Option Nat) (index : Nat) : SemanticsNode → List PendingNode
  | ⟨id, role, label, value, enabled, bounds, actions, children, focusable, focused⟩ =>
    ⟨⟨id, role, label, value, enabled, bounds, actions, children, focusable, focused⟩,
      parentId, index⟩ :: siblingPlaces (some id) 0 children
/-- The places in consecutive siblings. -/
def siblingPlaces (parentId : Option Nat) (index : Nat) : List SemanticsNode → List PendingNode
  | [] => []
  | node :: rest => nodePlaces parentId index node ++ siblingPlaces parentId (index + 1) rest
end

/-- All nodes of a tree with their places. -/
def SemanticsTree.places (tree : SemanticsTree) : List PendingNode := siblingPlaces none 0 tree.roots

theorem node_places_eq (parentId : Option Nat) (index : Nat) (node : SemanticsNode) :
    nodePlaces parentId index node =
      ⟨node, parentId, index⟩ :: siblingPlaces (some node.id) 0 node.children := by
  cases node
  rfl

mutual
theorem node_entries_places : ∀ (node : SemanticsNode) (parentId : Option Nat) (index : Nat),
    nodeEntries parentId index node = (nodePlaces parentId index node).map PendingNode.entry
  | ⟨id, role, label, value, enabled, bounds, actions, children, focusable, focused⟩,
    parentId, index => by
    rw [nodeEntries, nodePlaces, List.map_cons, sibling_entries_places children (some id) 0]
    rfl
theorem sibling_entries_places : ∀ (nodes : List SemanticsNode) (parentId : Option Nat)
    (index : Nat), siblingEntries parentId index nodes =
      (siblingPlaces parentId index nodes).map PendingNode.entry
  | [], _, _ => rfl
  | node :: rest, parentId, index => by
    rw [siblingEntries, siblingPlaces, List.map_append, node_entries_places node parentId index,
      sibling_entries_places rest parentId (index + 1)]
end

theorem entries_places (tree : SemanticsTree) :
    tree.entries = tree.places.map PendingNode.entry := sibling_entries_places tree.roots none 0

/-! The flattening loop visits the places in order. -/

/-- The checks of the flattening loop, place by place. -/
def visitAll : List PendingNode → Flattening → Except Failure Flattening
  | [], done => pure done
  | place :: rest, done => do visitAll rest (← visitNode place done)

theorem visit_all_append (first second : List PendingNode) : ∀ done,
    visitAll (first ++ second) done = visitAll first done >>= visitAll second := by
  induction first with
  | nil => exact fun done => rfl
  | cons place first ih =>
    intro done
    rw [List.cons_append, visitAll, visitAll]
    cases visitNode place done with
    | error failure => rfl
    | ok visited => exact ih visited

mutual
theorem flatten_node_visits : ∀ (node : SemanticsNode) (parentId : Option Nat) (index : Nat)
    (done : Flattening), flattenLoop [⟨node, parentId, index⟩] done =
      visitAll (nodePlaces parentId index node) done
  | ⟨id, role, label, value, enabled, bounds, actions, children, focusable, focused⟩,
    parentId, index, done => by
    rw [flattenLoop, nodePlaces, visitAll, List.append_nil]
    exact congrArg _ (funext fun visited => flatten_sibling_visits children (some id) 0 visited)
theorem flatten_sibling_visits : ∀ (nodes : List SemanticsNode) (parentId : Option Nat)
    (index : Nat) (done : Flattening), flattenLoop (pendingNodes parentId index nodes) done =
      visitAll (siblingPlaces parentId index nodes) done
  | [], _, _, done => by
    rw [pendingNodes, flattenLoop, siblingPlaces, visitAll]
  | node :: rest, parentId, index, done => by
    have split : pendingNodes parentId index (node :: rest) =
        [⟨node, parentId, index⟩] ++ pendingNodes parentId (index + 1) rest := rfl
    rw [split, flatten_loop_append, siblingPlaces, visit_all_append,
      flatten_node_visits node parentId index done]
    exact congrArg _ (funext fun visited =>
      flatten_sibling_visits rest parentId (index + 1) visited)
end

/-- What every node is checked for by itself. -/
structure PendingNode.Sound (place : PendingNode) : Prop where
  nonzero : place.node.id ≠ 0
  focused : place.node.focused = true → place.node.focusable = true ∧ place.node.enabled = true
  actions : place.node.focusable = place.node.supports .focus

/-- A tree that can be published. -/
structure SemanticsTree.Publishable (tree : SemanticsTree) : Prop where
  sound : ∀ place ∈ tree.places, place.Sound
  distinct : (tree.places.map (·.node.id)).Nodup
  alone : tree.places.countP (·.node.focused) ≤ 1

theorem visit_node_ok_iff {place : PendingNode} {done result : Flattening} :
    visitNode place done = .ok result ↔
      place.Sound ∧ place.node.id ∉ done.ids ∧
        (place.node.focused = true → done.hasFocusedNode = false) ∧
        result = ⟨done.next ++ [place.entry], place.node.id :: done.ids,
          done.hasFocusedNode || place.node.focused⟩ := by
  constructor
  · intro visited
    simp only [visitNode] at visited
    split at visited
    · cases visited
    · rename_i fresh
      split at visited
      · cases visited
      · rename_i focus
        split at visited
        · cases visited
        · rename_i actions
          rw [not_or] at fresh
          have focused : place.node.focused = true → place.node.focusable = true ∧
              place.node.enabled = true ∧ done.hasFocusedNode = false := by
            intro focused
            simpa [focused] using focus
          cases visited
          exact ⟨⟨fresh.1, fun held => ⟨(focused held).1, (focused held).2.1⟩,
            not_not.mp actions⟩, fresh.2, fun held => (focused held).2.2, rfl⟩
  · rintro ⟨sound, fresh, alone, rfl⟩
    have focus : ¬(place.node.focused = true ∧ (¬place.node.focusable = true ∨
        ¬place.node.enabled = true ∨ done.hasFocusedNode = true)) := by
      rintro ⟨focused, wrong⟩
      simp [sound.focused focused, alone focused] at wrong
    simp only [visitNode]
    rw [if_neg (not_or.mpr ⟨sound.nonzero, fresh⟩), if_neg focus,
      if_neg (not_not.mpr sound.actions)]
    rfl

/-- Visiting succeeds exactly if every place is sound, no identity is seen twice and at most
one node is focused. -/
theorem visit_all_ok_iff (places : List PendingNode) : ∀ done : Flattening,
    (∃ result, visitAll places done = .ok result) ↔
      (∀ place ∈ places, place.Sound ∧ place.node.id ∉ done.ids) ∧
        (places.map (·.node.id)).Nodup ∧
        places.countP (·.node.focused) + done.hasFocusedNode.toNat ≤ 1 := by
  induction places with
  | nil =>
    intro done
    have few : done.hasFocusedNode.toNat ≤ 1 := Bool.toNat_le _
    simpa [visitAll, pure, Except.pure] using few
  | cons place rest ih =>
    intro done
    have split : (∃ result, visitAll (place :: rest) done = .ok result) ↔
        ∃ middle, visitNode place done = .ok middle ∧
          ∃ result, visitAll rest middle = .ok result := by
      rw [visitAll]
      cases visitNode place done with
      | error failure => simp [bind, Except.bind]
      | ok middle => simp [bind, Except.bind]
    simp only [split, visit_node_ok_iff]
    constructor
    · rintro ⟨middle, ⟨sound, fresh, alone, rfl⟩, visited⟩
      obtain ⟨others, distinct, few⟩ := (ih _).mp visited
      simp only [List.mem_cons, not_or] at others
      refine ⟨List.forall_mem_cons.mpr ⟨⟨sound, fresh⟩, fun other listed =>
        ⟨(others other listed).1, (others other listed).2.2⟩⟩, ?_, ?_⟩
      · rw [List.map_cons, List.nodup_cons]
        refine ⟨fun twice => ?_, distinct⟩
        obtain ⟨other, listed, same⟩ := List.mem_map.mp twice
        exact (others other listed).2.1 same
      · rw [List.countP_cons]
        cases focused : place.node.focused with
        | false => simpa [focused] using few
        | true =>
          simp only [focused, Bool.or_true, Bool.toNat_true] at few
          simp only [alone focused, Bool.toNat_false, if_true]
          omega
    · rintro ⟨all, distinct, few⟩
      obtain ⟨⟨sound, fresh⟩, others⟩ := List.forall_mem_cons.mp all
      rw [List.map_cons, List.nodup_cons] at distinct
      rw [List.countP_cons] at few
      refine ⟨_, ⟨sound, fresh, fun focused => ?_, rfl⟩, (ih _).mpr ⟨fun other listed => ?_,
        distinct.2, ?_⟩⟩
      · cases flag : done.hasFocusedNode with
        | false => rfl
        | true =>
          simp only [focused, flag, if_true, Bool.toNat_true] at few
          omega
      · refine ⟨(others other listed).1, ?_⟩
        rw [List.mem_cons, not_or]
        exact ⟨fun same => distinct.1 (List.mem_map.mpr ⟨other, listed, same⟩),
          (others other listed).2⟩
      · cases focused : place.node.focused with
        | false => simpa [focused] using few
        | true =>
          simp only [focused, if_true] at few
          simp only [Bool.or_true, Bool.toNat_true]
          omega

/-- The differ accepts exactly the trees that can be published. -/
theorem flatten_accepts_iff (tree : SemanticsTree) :
    flattenTree tree = .ok tree.entries ↔ tree.Publishable := by
  have accepts : flattenTree tree = .ok tree.entries ↔
      ∃ result, visitAll tree.places {} = .ok result := by
    have visits := flatten_sibling_visits tree.roots none 0 {}
    constructor
    · intro accepted
      rw [flattenTree, visits] at accepted
      cases visited : visitAll (siblingPlaces none 0 tree.roots) {} with
      | error failure =>
        rw [visited] at accepted
        cases accepted
      | ok result => exact ⟨result, visited⟩
    · rintro ⟨result, visited⟩
      have accepted : flattenTree tree = .ok result.next := by
        rw [flattenTree, visits]
        exact congrArg (· >>= fun done : Flattening => pure done.next) visited
      rw [accepted, (flatten_tree_ok accepted).1]
  rw [accepts, visit_all_ok_iff]
  constructor
  · rintro ⟨sound, distinct, alone⟩
    exact ⟨fun place listed => (sound place listed).1, distinct, alone⟩
  · intro publishable
    exact ⟨fun place listed => ⟨publishable.sound place listed, List.not_mem_nil⟩,
      publishable.distinct, publishable.alone⟩

/-! The hierarchy that entries tell. -/

/-- A list enumerates the entries below a parent, or the roots, each at its index. -/
structure Enumerated (m : Mirror Nat SemanticsEntry) (parent : Option Nat) (ids : List Nat) :
    Prop where
  members : ∀ id, id ∈ ids ↔ ∃ entry, m id = some entry ∧ entry.parentId = parent
  indexed : ∀ (index : Nat) id, ids[index]? = some id →
    ∃ entry, m id = some entry ∧ entry.childIndex = index

/-- There is one enumeration: the indexes tell the order. -/
theorem Enumerated.unique {m : Mirror Nat SemanticsEntry} {parent : Option Nat}
    {first second : List Nat} (one : Enumerated m parent first)
    (other : Enumerated m parent second) : first = second := by
  have agrees : ∀ {first second : List Nat}, Enumerated m parent first →
      Enumerated m parent second → ∀ (index : Nat) id, first[index]? = some id →
        second[index]? = some id := by
    intro first second one other index id here
    obtain ⟨entry, held, at_index⟩ := one.indexed index id here
    have listed : id ∈ second :=
      (other.members id).mpr ((one.members id).mp (List.mem_of_getElem? here))
    obtain ⟨place, there⟩ := List.mem_iff_getElem?.mp listed
    obtain ⟨_, again, same⟩ := other.indexed place id there
    cases held.symm.trans again
    rw [← at_index, same]
    exact there
  refine List.ext_getElem? fun index => Option.ext fun id => ?_
  exact ⟨agrees one other index id, agrees other one index id⟩

theorem sibling_places_at (nodes : List SemanticsNode) : ∀ parentId index position node,
    nodes[position]? = some node →
      ⟨node, parentId, index + position⟩ ∈ siblingPlaces parentId index nodes := by
  induction nodes with
  | nil => nofun
  | cons first rest ih =>
    intro parentId index position node here
    rw [siblingPlaces, node_places_eq]
    cases position with
    | zero =>
      cases here
      exact List.mem_append_left _ (.head _)
    | succ position =>
      refine List.mem_append_right _ ?_
      rw [show index + (position + 1) = index + 1 + position by omega]
      exact ih parentId (index + 1) position node here

mutual
theorem node_places_children : ∀ (node : SemanticsNode) (parentId : Option Nat) (index : Nat),
    ∀ place ∈ nodePlaces parentId index node, ∀ (position : Nat) (child : SemanticsNode),
      place.node.children[position]? = some child →
        ⟨child, some place.node.id, position⟩ ∈ nodePlaces parentId index node
  | ⟨id, role, label, value, enabled, bounds, actions, children, focusable, focused⟩,
    parentId, index, place, listed, position, child, here => by
    rw [node_places_eq] at listed ⊢
    rcases List.mem_cons.mp listed with rfl | listed
    · have among := sibling_places_at children (some id) 0 position child here
      rw [Nat.zero_add] at among
      exact .tail _ among
    · exact .tail _ (sibling_places_children children (some id) 0 place listed position child here)
theorem sibling_places_children : ∀ (nodes : List SemanticsNode) (parentId : Option Nat)
    (index : Nat), ∀ place ∈ siblingPlaces parentId index nodes,
    ∀ (position : Nat) (child : SemanticsNode), place.node.children[position]? = some child →
      ⟨child, some place.node.id, position⟩ ∈ siblingPlaces parentId index nodes
  | [], _, _, _, listed, _, _, _ => nomatch listed
  | node :: rest, parentId, index, place, listed, position, child, here => by
    rw [siblingPlaces] at listed ⊢
    rcases List.mem_append.mp listed with listed | listed
    · exact List.mem_append_left _
        (node_places_children node parentId index place listed position child here)
    · exact List.mem_append_right _
        (sibling_places_children rest parentId (index + 1) place listed position child here)
end

/-- Every place is one of the siblings, or a child of another place. -/
def PendingNode.Below (place : PendingNode) (places : List PendingNode) : Prop :=
  ∃ above ∈ places, place.parentId = some above.node.id ∧
    above.node.children[place.childIndex]? = some place.node

theorem PendingNode.Below.mono {place : PendingNode} {fewer places : List PendingNode}
    (below : place.Below fewer) (more : fewer ⊆ places) : place.Below places := by
  obtain ⟨above, listed, same⟩ := below
  exact ⟨above, more listed, same⟩

mutual
theorem node_places_parents : ∀ (node : SemanticsNode) (parentId : Option Nat) (index : Nat),
    ∀ place ∈ nodePlaces parentId index node,
      place = ⟨node, parentId, index⟩ ∨ place.Below (nodePlaces parentId index node)
  | ⟨id, role, label, value, enabled, bounds, actions, children, focusable, focused⟩,
    parentId, index, place, listed => by
    rw [node_places_eq] at listed ⊢
    rcases List.mem_cons.mp listed with rfl | listed
    · exact Or.inl rfl
    · refine Or.inr ?_
      rcases sibling_places_parents children (some id) 0 place listed with
        ⟨position, named, here, at_index⟩ | below
      · refine ⟨_, .head _, named, ?_⟩
        rw [at_index, Nat.zero_add]
        exact here
      · exact below.mono (List.subset_cons_self _ _)
theorem sibling_places_parents : ∀ (nodes : List SemanticsNode) (parentId : Option Nat)
    (index : Nat), ∀ place ∈ siblingPlaces parentId index nodes,
      (∃ position, place.parentId = parentId ∧ nodes[position]? = some place.node ∧
        place.childIndex = index + position) ∨ place.Below (siblingPlaces parentId index nodes)
  | [], _, _, _, listed => nomatch listed
  | node :: rest, parentId, index, place, listed => by
    rw [siblingPlaces] at listed ⊢
    rcases List.mem_append.mp listed with listed | listed
    · rcases node_places_parents node parentId index place listed with rfl | below
      · exact Or.inl ⟨0, rfl, rfl, rfl⟩
      · exact Or.inr (below.mono (List.subset_append_left _ _))
    · rcases sibling_places_parents rest parentId (index + 1) place listed with
        ⟨position, named, here, at_index⟩ | below
      · exact Or.inl ⟨position + 1, named, here, by omega⟩
      · exact Or.inr (below.mono (List.subset_append_right _ _))
end

section Published
variable {tree : SemanticsTree} (publishable : tree.Publishable)
include publishable

theorem SemanticsTree.Publishable.nodup : (tree.entries.map entryKeys.key).Nodup := by
  have same : tree.entries.map entryKeys.key = tree.places.map (·.node.id) := by
    rw [entries_places, List.map_map]
    rfl
  rw [same]
  exact publishable.distinct

/-- The mirror of a tree that can be published holds the entries of its places. -/
theorem SemanticsTree.Publishable.mirror_iff (id : Nat) (entry : SemanticsEntry) :
    mirrorOf entryKeys tree.entries id = some entry ↔
      ∃ place ∈ tree.places, place.entry = entry ∧ place.node.id = id := by
  rw [mirror_of_some publishable.nodup, entries_places, List.mem_map]
  constructor
  · rintro ⟨⟨place, listed, rfl⟩, named⟩
    exact ⟨place, listed, rfl, named⟩
  · rintro ⟨place, listed, rfl, named⟩
    exact ⟨⟨place, listed, rfl⟩, named⟩

/-- Places with one identity are one place. -/
theorem SemanticsTree.Publishable.place_unique {first second : PendingNode}
    (one : first ∈ tree.places) (other : second ∈ tree.places)
    (same : first.node.id = second.node.id) : first = second :=
  List.inj_on_of_nodup_map publishable.distinct one other same

theorem SemanticsTree.Publishable.roots_enumerated :
    Enumerated (mirrorOf entryKeys tree.entries) none (tree.roots.map SemanticsNode.id) := by
  refine ⟨fun id => ?_, fun index id here => ?_⟩
  · rw [List.mem_map]
    constructor
    · rintro ⟨node, listed, rfl⟩
      obtain ⟨position, here⟩ := List.mem_iff_getElem?.mp listed
      have among := sibling_places_at tree.roots none 0 position node here
      exact ⟨_, (publishable.mirror_iff _ _).mpr ⟨_, among, rfl, rfl⟩, rfl⟩
    · rintro ⟨entry, held, top⟩
      obtain ⟨place, listed, rfl, rfl⟩ := (publishable.mirror_iff _ _).mp held
      rcases sibling_places_parents tree.roots none 0 place listed with ⟨_, _, here, _⟩ | below
      · exact ⟨place.node, List.mem_of_getElem? here, rfl⟩
      · obtain ⟨_, _, named, _⟩ := below
        cases top.symm.trans named
  · rw [List.getElem?_map] at here
    obtain ⟨node, found, rfl⟩ := Option.map_eq_some_iff.mp here
    have among := sibling_places_at tree.roots none 0 index node found
    rw [Nat.zero_add] at among
    exact ⟨_, (publishable.mirror_iff _ _).mpr ⟨_, among, rfl, rfl⟩, rfl⟩

theorem SemanticsTree.Publishable.children_enumerated {place : PendingNode}
    (listed : place ∈ tree.places) :
    Enumerated (mirrorOf entryKeys tree.entries) (some place.node.id)
      (place.node.children.map SemanticsNode.id) := by
  have child_place : ∀ position child, place.node.children[position]? = some child →
      ⟨child, some place.node.id, position⟩ ∈ tree.places := fun position child here =>
    sibling_places_children tree.roots none 0 place listed position child here
  refine ⟨fun id => ?_, fun index id here => ?_⟩
  · rw [List.mem_map]
    constructor
    · rintro ⟨child, among, rfl⟩
      obtain ⟨position, here⟩ := List.mem_iff_getElem?.mp among
      exact ⟨_, (publishable.mirror_iff _ _).mpr ⟨_, child_place position child here, rfl, rfl⟩,
        rfl⟩
    · rintro ⟨entry, held, named⟩
      obtain ⟨child, among, rfl, rfl⟩ := (publishable.mirror_iff _ _).mp held
      rcases sibling_places_parents tree.roots none 0 child among with ⟨_, top, _⟩ | below
      · cases top.symm.trans named
      · obtain ⟨above, owned, called, here⟩ := below
        have same : above.node.id = place.node.id := Option.some.inj (called.symm.trans named)
        cases publishable.place_unique owned listed same
        exact ⟨child.node, List.mem_of_getElem? here, rfl⟩
  · rw [List.getElem?_map] at here
    obtain ⟨child, found, rfl⟩ := Option.map_eq_some_iff.mp here
    exact ⟨_, (publishable.mirror_iff _ _).mpr ⟨_, child_place index child found, rfl, rfl⟩, rfl⟩

end Published

end Dui
