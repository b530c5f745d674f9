import Mathlib.Data.List.Nodup
import Mathlib.Data.List.Perm.Basic

/-! Registries of nodes that name their parents and are listed by them. While lists are
being edited their nodes are held elsewhere: a registry stays in order if every list,
edited or not, enumerates the nodes that name its owner as their parent. -/
namespace Hierarchy

structure Node (ι : Type) where
  depth : Nat
  parent : Option Nat
  info : ι

/-- The nodes under ids that are handed out in turn, and how many came and went. -/
structure Shape (ι : Type) where
  root : Option Nat
  nodes : Nat → Option (Node ι)
  nextId : Nat
  made : Nat
  removed : Nat

/-- A list being edited: the node it belongs to, or none for the list of the root, and what
is held for it. -/
structure Opening (ι : Type) where
  place : Option (Nat × Node ι)
  held : List Nat

variable {ι : Type}

namespace Opening

def id (opening : Opening ι) : Option Nat := opening.place.map (·.1)

/-- The depth of the nodes that are held. -/
def level (opening : Opening ι) : Nat :=
  match opening.place with
  | none => 0
  | some (_, node) => node.depth + 1

end Opening

/-- A node names its parent. -/
def Names (shape : Shape ι) (id : Nat) (parent : Option Nat) : Prop :=
  ∃ node, shape.nodes id = some node ∧ node.parent = parent

/-- A list holds exactly the nodes that name a parent. -/
def Enumerates (shape : Shape ι) (list : List Nat) (parent : Option Nat) : Prop :=
  list.Nodup ∧ ∀ id, id ∈ list ↔ Names shape id parent

/-- A registry in order, with some lists open, the innermost first. Ids that are gone stay
away. -/
structure Placed (children : ι → List Nat) (good : Nat → ι → Prop) (gone : Nat → Prop)
    (root : Option Nat) (openings : List (Opening ι)) (shape : Shape ι) : Prop where
  rooted : shape.root = root
  turns : shape.nextId = shape.made + 1
  issued : ∀ id node, shape.nodes id = some node → id < shape.nextId
  away : ∀ id, gone id → shape.nodes id = none ∧ id < shape.nextId
  sound : ∀ id node, shape.nodes id = some node → good id node.info
  lineage : ∀ id node, shape.nodes id = some node → node.parent = none ∧ node.depth = 0 ∨
    ∃ above parent, node.parent = some above ∧ shape.nodes above = some parent ∧
      node.depth = parent.depth + 1
  closed : ∀ id node, shape.nodes id = some node → some id ∉ openings.map (·.id) →
    Enumerates shape (children node.info) (some id)
  holding : ∀ opening ∈ openings, Enumerates shape opening.held opening.id
  present : ∀ opening ∈ openings, ∀ id node, opening.place = some (id, node) →
    shape.nodes id = some node
  descending : openings.Pairwise (·.level > ·.level)
  counted : ∃ ids : List Nat, ids.Nodup ∧ (∀ id, id ∈ ids ↔ (shape.nodes id).isSome) ∧
    shape.made = shape.removed + ids.length

namespace Names
variable {shape : Shape ι} {id : Nat} {first second : Option Nat}

theorem unique (one : Names shape id first) (other : Names shape id second) : first = second := by
  obtain ⟨node, found, rfl⟩ := one
  obtain ⟨_, again, rfl⟩ := other
  cases found.symm.trans again
  rfl

end Names

theorem Enumerates.perm {shape : Shape ι} {first second : List Nat} {parent : Option Nat}
    (enumerates : Enumerates shape first parent) (same : first.Perm second) :
    Enumerates shape second parent :=
  ⟨same.nodup_iff.mp enumerates.1, fun id => same.mem_iff.symm.trans (enumerates.2 id)⟩

/-! ### Edits -/

/-- A new node, at the depth of what is held and under its owner. -/
def Shape.make (shape : Shape ι) (depth : Nat) (parent : Option Nat) (info : ι) : Shape ι :=
  { shape with
    nodes := fun id => if id = shape.nextId then some ⟨depth, parent, info⟩ else shape.nodes id
    nextId := shape.nextId + 1
    made := shape.made + 1 }

def Shape.remove (shape : Shape ι) (gone : Nat) : Shape ι :=
  { shape with
    nodes := fun id => if id = gone then none else shape.nodes id
    removed := shape.removed + 1 }

def Shape.setInfo (shape : Shape ι) (changed : Nat) (info : ι) : Shape ι :=
  { shape with
    nodes := fun id => if id = changed then (shape.nodes id).map fun node => { node with info }
      else shape.nodes id }

namespace Placed
variable {children : ι → List Nat} {good : Nat → ι → Prop} {gone : Nat → Prop}
  {root : Option Nat} {outer : List (Opening ι)} {shape : Shape ι} {opening : Opening ι}

section Top
variable {place : Option (Nat × Node ι)} {held : List Nat}

/-- What is held may be held in any order. -/
theorem perm {other : List Nat}
    (placed : Placed children good gone root (⟨place, held⟩ :: outer) shape)
    (same : held.Perm other) : Placed children good gone root (⟨place, other⟩ :: outer) shape where
  rooted := placed.rooted
  turns := placed.turns
  issued := placed.issued
  away := placed.away
  sound := placed.sound
  lineage := placed.lineage
  closed := placed.closed
  holding := by
    have first := placed.holding _ List.mem_cons_self
    refine List.forall_mem_cons.mpr ⟨first.perm same, fun opening listed => ?_⟩
    exact placed.holding opening (List.mem_cons_of_mem _ listed)
  present := List.forall_mem_cons.mpr (List.forall_mem_cons.mp placed.present)
  descending := List.pairwise_cons.mpr (List.pairwise_cons.mp placed.descending)
  counted := placed.counted

/-- A node that is held names the owner of the list, one level above. -/
theorem held_node (placed : Placed children good gone root (⟨place, held⟩ :: outer) shape)
    {id : Nat} (listed : id ∈ held) : ∃ node, shape.nodes id = some node ∧
      node.parent = place.map (·.1) ∧ node.depth = (Opening.mk place held).level := by
  obtain ⟨node, found, named⟩ := ((placed.holding _ List.mem_cons_self).2 id).mp listed
  refine ⟨node, found, named, ?_⟩
  rcases placed.lineage id node found with ⟨top, depth⟩ | ⟨above, parent, named', there, depth⟩
  · rw [top] at named
    obtain rfl : place = none := Option.map_eq_none_iff.mp named.symm
    exact depth
  · rw [named'] at named
    obtain ⟨⟨other, owner⟩, rfl, rfl⟩ := Option.map_eq_some_iff.mp named.symm
    have present := placed.present _ List.mem_cons_self other owner rfl
    cases present.symm.trans there
    exact depth

/-- The lists of nodes as deep as what is held are not being edited. -/
theorem not_open {hollow : List (Opening ι)}
    (placed : Placed children good gone root hollow shape) {id : Nat} {node : Node ι}
    (found : shape.nodes id = some node) (deep : ∀ opening ∈ hollow, opening.level ≤ node.depth) :
    some id ∉ hollow.map (·.id) := by
  intro opened
  obtain ⟨opening, listed, same⟩ := List.mem_map.mp opened
  obtain ⟨⟨other, owner⟩, placed', rfl⟩ := Option.map_eq_some_iff.mp same
  have present := placed.present opening listed other owner placed'
  cases found.symm.trans present
  have level := deep opening listed
  simp only [Opening.level, placed'] at level
  omega

/-- Opens the list of a node that is deep enough. -/
theorem push {hollow : List (Opening ι)}
    (placed : Placed children good gone root hollow shape) {id : Nat} {node : Node ι}
    (found : shape.nodes id = some node) (deep : ∀ opening ∈ hollow, opening.level ≤ node.depth) :
    Placed children good gone root (⟨some (id, node), children node.info⟩ :: hollow) shape where
  rooted := placed.rooted
  turns := placed.turns
  issued := placed.issued
  away := placed.away
  sound := placed.sound
  lineage := placed.lineage
  closed other owner there shut := placed.closed other owner there fun listed =>
    shut (List.mem_cons_of_mem _ listed)
  holding := List.forall_mem_cons.mpr
    ⟨placed.closed id node found (placed.not_open found deep), placed.holding⟩
  present := by
    refine List.forall_mem_cons.mpr ⟨fun other owner same => ?_, placed.present⟩
    cases same
    exact found
  descending := List.pairwise_cons.mpr
    ⟨fun opening listed => Nat.lt_succ_of_le (deep opening listed), placed.descending⟩
  counted := placed.counted

/-- Closes a list when it lists what is held. -/
theorem pop {id : Nat} {node : Node ι}
    (placed : Placed children good gone root (⟨some (id, node), held⟩ :: outer) shape)
    (same : held.Perm (children node.info)) : Placed children good gone root outer shape where
  rooted := placed.rooted
  turns := placed.turns
  issued := placed.issued
  away := placed.away
  sound := placed.sound
  lineage := placed.lineage
  closed other owner there shut := by
    have present := placed.present _ List.mem_cons_self id node rfl
    by_cases here : other = id
    · subst here
      cases present.symm.trans there
      exact (placed.holding _ List.mem_cons_self).perm same
    · refine placed.closed other owner there fun listed => ?_
      rcases List.mem_cons.mp listed with same | listed
      · exact here (Option.some.inj same)
      · exact shut listed
  holding opening listed := placed.holding opening (List.mem_cons_of_mem _ listed)
  present opening listed := placed.present opening (List.mem_cons_of_mem _ listed)
  descending := (List.pairwise_cons.mp placed.descending).2
  counted := placed.counted

theorem same_level {hollow : List (Opening ι)}
    (placed : Placed children good gone root hollow shape) {first second : Opening ι}
    (one : first ∈ hollow) (other : second ∈ hollow) (same : first.id = second.id) :
    first.level = second.level := by
  have named : second.place.map (·.1) = first.place.map (·.1) := same.symm
  cases here : first.place with
  | none =>
    rw [here] at named
    simp only [Opening.level, here, Option.map_eq_none_iff.mp named]
  | some owner =>
    rw [here] at named
    obtain ⟨⟨id, node⟩, there, named⟩ := Option.map_eq_some_iff.mp named
    obtain ⟨_, found⟩ := owner
    cases named
    cases (placed.present _ one _ _ here).symm.trans (placed.present _ other _ _ there)
    simp only [Opening.level, here, there]

/-- No two lists being edited have the same owner. -/
theorem apart {hollow : List (Opening ι)} (placed : Placed children good gone root hollow shape) :
    hollow.Pairwise (·.id ≠ ·.id) :=
  placed.descending.imp_of_mem fun one other level same =>
    Nat.ne_of_gt level (placed.same_level one other same)

/-- The owner of the innermost list is the owner of no other. -/
theorem top_alone (placed : Placed children good gone root (⟨place, held⟩ :: outer) shape) :
    ∀ opening ∈ outer, opening.id ≠ place.map (·.1) := fun opening listed same =>
  (List.pairwise_cons.mp placed.apart).1 opening listed same.symm

/-- A parent that is named is there. -/
theorem parent_there {hollow : List (Opening ι)}
    (placed : Placed children good gone root hollow shape) {id above : Nat}
    (named : Names shape id (some above)) : ∃ parent, shape.nodes above = some parent := by
  obtain ⟨node, found, named⟩ := named
  rcases placed.lineage id node found with ⟨top, _⟩ | ⟨other, parent, named', there, _⟩
  · rw [top] at named
    cases named
  · cases named'.symm.trans named
    exact ⟨parent, there⟩

theorem names_make {depth : Nat} {parent : Option Nat} {info : ι}
    (unused : shape.nodes shape.nextId = none) {id : Nat} {above : Option Nat} :
    Names (shape.make depth parent info) id above ↔
      Names shape id above ∨ id = shape.nextId ∧ above = parent := by
  by_cases new : id = shape.nextId
  · subst new
    simp [Names, Shape.make, unused, eq_comm]
  · simp [Names, Shape.make, new]

/-- A node is made under the owner of the innermost list and held for it. -/
theorem make (placed : Placed children good gone root (⟨place, held⟩ :: outer) shape) {info : ι}
    (bare : children info = []) (fit : good shape.nextId info) :
    Placed children good gone root (⟨place, shape.nextId :: held⟩ :: outer)
      (shape.make (Opening.mk place held).level (place.map (·.1)) info) := by
  have unused : shape.nodes shape.nextId = none :=
    Option.eq_none_iff_forall_ne_some.mpr fun node found =>
      Nat.lt_irrefl _ (placed.issued _ node found)
  have kept : ∀ id node, shape.nodes id = some node →
      (shape.make (Opening.mk place held).level (place.map (·.1)) info).nodes id = some node := by
    intro id node found
    have old : id ≠ shape.nextId := by
      rintro rfl
      cases unused.symm.trans found
    simpa [Shape.make, old] using found
  have cases_of : ∀ id node,
      (shape.make (Opening.mk place held).level (place.map (·.1)) info).nodes id = some node →
      id = shape.nextId ∧ node = ⟨(Opening.mk place held).level, place.map (·.1), info⟩ ∨
        shape.nodes id = some node := by
    intro id node found
    by_cases new : id = shape.nextId
    · exact .inl ⟨new, by simpa [Shape.make, new, eq_comm] using found⟩
    · exact .inr (by simpa [Shape.make, new] using found)
  refine ⟨placed.rooted, congrArg (· + 1) placed.turns, ?_, ?_, ?_, ?_, ?_, ?_, ?_, ?_, ?_⟩
  · intro id node found
    rcases cases_of id node found with ⟨rfl, _⟩ | found
    · exact Nat.lt_succ_self _
    · exact Nat.lt_succ_of_lt (placed.issued id node found)
  · intro id gone
    obtain ⟨absent, issued⟩ := placed.away id gone
    exact ⟨by simpa [Shape.make, Nat.ne_of_lt issued] using absent, Nat.lt_succ_of_lt issued⟩
  · intro id node found
    rcases cases_of id node found with ⟨rfl, rfl⟩ | found
    · exact fit
    · exact placed.sound id node found
  · intro id node found
    rcases cases_of id node found with ⟨rfl, rfl⟩ | found
    · cases place with
      | none => exact .inl ⟨rfl, rfl⟩
      | some owner =>
        obtain ⟨above, parent⟩ := owner
        have there := placed.present _ List.mem_cons_self above parent rfl
        exact .inr ⟨above, parent, rfl, kept above parent there, rfl⟩
    · rcases placed.lineage id node found with top | ⟨above, parent, named, there, depth⟩
      · exact .inl top
      · exact .inr ⟨above, parent, named, kept above parent there, depth⟩
  · intro id node found shut
    rcases cases_of id node found with ⟨rfl, rfl⟩ | found
    · simp only [bare]
      refine ⟨List.nodup_nil, fun other => ?_⟩
      rw [names_make unused]
      refine ⟨nofun, ?_⟩
      rintro (named | ⟨_, named⟩)
      · obtain ⟨parent, there⟩ := placed.parent_there named
        cases unused.symm.trans there
      · exact absurd (List.mem_cons.mpr (.inl named)) shut
    · obtain ⟨distinct, listed⟩ := placed.closed id node found shut
      refine ⟨distinct, fun other => ?_⟩
      rw [names_make unused, listed]
      refine ⟨.inl, ?_⟩
      rintro (named | ⟨_, named⟩)
      · exact named
      · exact absurd (List.mem_cons.mpr (.inl named)) shut
  · intro opening listed
    rcases List.mem_cons.mp listed with rfl | listed
    · obtain ⟨distinct, enumerated⟩ := placed.holding _ List.mem_cons_self
      have new : shape.nextId ∉ held := fun listed => by
        obtain ⟨node, found, _⟩ := (enumerated _).mp listed
        cases unused.symm.trans found
      refine ⟨List.nodup_cons.mpr ⟨new, distinct⟩, fun id => ?_⟩
      rw [names_make unused, List.mem_cons, enumerated, or_comm]
      simp [Opening.id]
    · obtain ⟨distinct, enumerated⟩ := placed.holding opening (List.mem_cons_of_mem _ listed)
      refine ⟨distinct, fun id => ?_⟩
      rw [names_make unused, enumerated]
      refine ⟨.inl, ?_⟩
      rintro (named | ⟨_, named⟩)
      · exact named
      · exact absurd named (placed.top_alone opening listed)
  · intro opening listed id node here
    refine kept id node ?_
    rcases List.mem_cons.mp listed with rfl | listed
    · exact placed.present _ List.mem_cons_self id node here
    · exact placed.present opening (List.mem_cons_of_mem _ listed) id node here
  · exact List.pairwise_cons.mpr (List.pairwise_cons.mp placed.descending)
  · obtain ⟨ids, distinct, members, balance⟩ := placed.counted
    refine ⟨shape.nextId :: ids, List.nodup_cons.mpr ⟨?_, distinct⟩, fun id => ?_, ?_⟩
    · rw [members, unused]
      exact Bool.false_ne_true
    · by_cases new : id = shape.nextId <;> simp [Shape.make, new, members]
    · simp only [Shape.make, List.length_cons, balance]
      omega

theorem names_remove {away id : Nat} {above : Option Nat} :
    Names (shape.remove away) id above ↔ id ≠ away ∧ Names shape id above := by
  by_cases gone : id = away <;> simp [Names, Shape.remove, gone]

/-- A node whose list is open and empty is removed from what is held around it. -/
theorem remove {id : Nat} {node : Node ι} {beyond : List (Opening ι)}
    (placed : Placed children good gone root
      (⟨some (id, node), []⟩ :: ⟨place, id :: held⟩ :: beyond) shape) :
    Placed children good gone root (⟨place, held⟩ :: beyond) (shape.remove id) := by
  have there := placed.present _ List.mem_cons_self id node rfl
  have childless : ∀ other, ¬ Names shape other (some id) := fun other named => by
    simpa using ((placed.holding _ List.mem_cons_self).2 other).mpr named
  have around := placed.holding ⟨place, id :: held⟩ (List.mem_cons_of_mem _ List.mem_cons_self)
  have named : Names shape id (place.map (·.1)) := (around.2 id).mp List.mem_cons_self
  have old : ∀ other owner, (shape.remove id).nodes other = some owner →
      other ≠ id ∧ shape.nodes other = some owner := by
    intro other owner found
    by_cases gone : other = id
    · simp [Shape.remove, gone] at found
    · exact ⟨gone, by simpa [Shape.remove, gone] using found⟩
  have kept : ∀ other owner, other ≠ id → shape.nodes other = some owner →
      (shape.remove id).nodes other = some owner := by
    intro other owner stays found
    simpa [Shape.remove, stays] using found
  have alone := placed.top_alone
  have apart := (List.pairwise_cons.mp placed.apart).2
  refine ⟨placed.rooted, placed.turns, ?_, ?_, ?_, ?_, ?_, ?_, ?_, ?_, ?_⟩
  · exact fun other owner found => placed.issued other owner (old other owner found).2
  · intro other gone
    obtain ⟨absent, issued⟩ := placed.away other gone
    refine ⟨?_, issued⟩
    by_cases same : other = id <;> simp [Shape.remove, same, absent]
  · exact fun other owner found => placed.sound other owner (old other owner found).2
  · intro other owner found
    obtain ⟨stays, before⟩ := old other owner found
    rcases placed.lineage other owner before with top | ⟨above, parent, names, present, depth⟩
    · exact .inl top
    · refine .inr ⟨above, parent, names, kept above parent (fun same => ?_) present, depth⟩
      exact childless other ⟨owner, before, same ▸ names⟩
  · intro other owner found shut
    obtain ⟨stays, found⟩ := old other owner found
    have closed : some other ∉ List.map (·.id)
        (⟨some (id, node), []⟩ :: ⟨place, id :: held⟩ :: beyond) := by
      simp only [List.map_cons, List.mem_cons, not_or] at shut ⊢
      exact ⟨fun same => stays (Option.some.inj same), shut⟩
    obtain ⟨distinct, listed⟩ := placed.closed other owner found closed
    refine ⟨distinct, fun child => ?_⟩
    rw [names_remove, listed]
    refine ⟨fun names => ⟨?_, names⟩, And.right⟩
    rintro rfl
    exact shut (List.mem_cons.mpr (.inl (names.unique named)))
  · intro opening listed
    rcases List.mem_cons.mp listed with rfl | listed
    · obtain ⟨distinct, enumerated⟩ := around
      obtain ⟨fresh, distinct⟩ := List.nodup_cons.mp distinct
      refine ⟨distinct, fun other => ?_⟩
      rw [names_remove, show (Opening.mk place held).id = place.map (·.1) from rfl,
        show Names shape other (place.map (·.1)) ↔ _ from (enumerated other).symm, List.mem_cons]
      constructor
      · exact fun listed => ⟨fun same => fresh (same ▸ listed), .inr listed⟩
      · exact fun ⟨stays, listed⟩ => listed.resolve_left stays
    · have deep := List.mem_cons_of_mem ⟨place, id :: held⟩ listed
      obtain ⟨distinct, enumerated⟩ := placed.holding opening (List.mem_cons_of_mem _ deep)
      refine ⟨distinct, fun other => ?_⟩
      rw [names_remove, enumerated]
      refine ⟨fun names => ⟨?_, names⟩, And.right⟩
      rintro rfl
      exact (List.pairwise_cons.mp apart).1 opening listed (named.unique names)
  · intro opening listed other owner here
    obtain ⟨before, within, same⟩ : ∃ before ∈ (⟨place, id :: held⟩ :: beyond : List (Opening ι)),
        before.place = opening.place := by
      rcases List.mem_cons.mp listed with rfl | within
      · exact ⟨_, List.mem_cons_self, rfl⟩
      · exact ⟨opening, List.mem_cons_of_mem _ within, rfl⟩
    rw [← same] at here
    refine kept other owner ?_ (placed.present before (List.mem_cons_of_mem _ within) _ _ here)
    rintro rfl
    exact alone before within (by simp [Opening.id, here])
  · exact List.pairwise_cons.mpr (List.pairwise_cons.mp (List.pairwise_cons.mp placed.descending).2)
  · obtain ⟨ids, distinct, members, balance⟩ := placed.counted
    have member : id ∈ ids := (members id).mpr (by simp [there])
    refine ⟨ids.erase id, distinct.erase id, fun other => ?_, ?_⟩
    · rw [distinct.mem_erase_iff, members]
      by_cases gone : other = id <;> simp [Shape.remove, gone]
    · have length := List.length_erase_of_mem member
      have positive := List.length_pos_of_mem member
      simp only [Shape.remove, balance]
      omega

theorem names_set_info {changed id : Nat} {info : ι} {above : Option Nat} :
    Names (shape.setInfo changed info) id above ↔ Names shape id above := by
  by_cases here : id = changed
  · subst here
    cases found : shape.nodes id <;> simp [Names, Shape.setInfo, found]
  · simp [Names, Shape.setInfo, here]

/-- The node whose list is open is changed otherwise than in its place. -/
theorem set_info {id : Nat} {node : Node ι} {info : ι}
    (placed : Placed children good gone root (⟨some (id, node), held⟩ :: outer) shape)
    (fit : good id info) :
    Placed children good gone root (⟨some (id, { node with info }), held⟩ :: outer)
      (shape.setInfo id info) := by
  have there := placed.present _ List.mem_cons_self id node rfl
  have now : (shape.setInfo id info).nodes id = some { node with info } := by
    simp [Shape.setInfo, there]
  have elsewhere : ∀ other, other ≠ id →
      (shape.setInfo id info).nodes other = shape.nodes other := fun other different => by
    simp [Shape.setInfo, different]
  have old : ∀ other owner, (shape.setInfo id info).nodes other = some owner →
      ∃ before, shape.nodes other = some before ∧ owner.parent = before.parent ∧
        owner.depth = before.depth := by
    intro other owner found
    by_cases here : other = id
    · subst here
      cases now.symm.trans found
      exact ⟨node, there, rfl, rfl⟩
    · exact ⟨owner, (elsewhere other here).symm.trans found, rfl, rfl⟩
  have kept : ∀ other owner, shape.nodes other = some owner →
      ∃ after, (shape.setInfo id info).nodes other = some after ∧ after.depth = owner.depth := by
    intro other owner found
    by_cases here : other = id
    · subst here
      cases there.symm.trans found
      exact ⟨_, now, rfl⟩
    · exact ⟨owner, (elsewhere other here).trans found, rfl⟩
  have enumerated : ∀ list parent, Enumerates shape list parent →
      Enumerates (shape.setInfo id info) list parent := fun list parent before =>
    ⟨before.1, fun other => (before.2 other).trans names_set_info.symm⟩
  refine ⟨placed.rooted, placed.turns, ?_, ?_, ?_, ?_, ?_, ?_, ?_, ?_, ?_⟩
  · intro other owner found
    obtain ⟨before, found, _⟩ := old other owner found
    exact placed.issued other before found
  · intro other gone
    obtain ⟨absent, issued⟩ := placed.away other gone
    refine ⟨?_, issued⟩
    simp [Shape.setInfo, absent]
  · intro other owner found
    by_cases here : other = id
    · subst here
      cases now.symm.trans found
      exact fit
    · exact placed.sound other owner ((elsewhere other here).symm.trans found)
  · intro other owner found
    obtain ⟨before, found, named, depth⟩ := old other owner found
    rcases placed.lineage other before found with
      ⟨top, first⟩ | ⟨above, parent, names, present, deep⟩
    · exact .inl ⟨named.trans top, depth.trans first⟩
    · obtain ⟨after, present, same⟩ := kept above parent present
      exact .inr ⟨above, after, named.trans names, present, by rw [depth, deep, same]⟩
  · intro other owner found shut
    have different : other ≠ id := by
      rintro rfl
      exact shut List.mem_cons_self
    have before := (elsewhere other different).symm.trans found
    exact enumerated _ _ (placed.closed other owner before shut)
  · intro opening listed
    rcases List.mem_cons.mp listed with rfl | within
    · exact enumerated _ _ (placed.holding ⟨some (id, node), held⟩ List.mem_cons_self)
    · exact enumerated _ _ (placed.holding opening (List.mem_cons_of_mem _ within))
  · intro opening listed other owner here
    rcases List.mem_cons.mp listed with rfl | within
    · cases here
      exact now
    · have different : other ≠ id := by
        rintro rfl
        exact placed.top_alone opening within (by simp [Opening.id, here])
      exact (elsewhere other different).trans
        (placed.present opening (List.mem_cons_of_mem _ within) other owner here)
  · exact List.pairwise_cons.mpr (List.pairwise_cons.mp placed.descending)
  · obtain ⟨ids, distinct, members, balance⟩ := placed.counted
    refine ⟨ids, distinct, fun other => (members other).trans ?_, balance⟩
    by_cases here : other = id <;> simp [Shape.setInfo, here]

end Top

end Placed

/-- What is held for the root is the root from now on. -/
theorem Placed.reroot {children : ι → List Nat} {good : Nat → ι → Prop} {gone : Nat → Prop}
    {root : Option Nat} {openings : List (Opening ι)} {shape : Shape ι} (id : Option Nat)
    (placed : Placed children good gone root openings shape) :
    Placed children good gone id openings { shape with root := id } :=
  ⟨rfl, placed.turns, placed.issued, placed.away, placed.sound, placed.lineage, placed.closed,
    placed.holding, placed.present, placed.descending, placed.counted⟩

/-! ### Reaching nodes from the root -/

/-- A way from the root to a node, by the positions in the lists, the last one first. -/
inductive PathTo (children : ι → List Nat) (shape : Shape ι) : List Nat → Nat → Prop where
  | root {id : Nat} (first : shape.root = some id) : PathTo children shape [] id
  | child {path : List Nat} {parent position id : Nat} {node : Node ι}
      (above : PathTo children shape path parent) (there : shape.nodes parent = some node)
      (listed : (children node.info)[position]? = some id) :
      PathTo children shape (position :: path) id

namespace Placed
variable {children : ι → List Nat} {good : Nat → ι → Prop} {gone : Nat → Prop}
  {root : Option Nat} {shape : Shape ι}
  (placed : Placed children good gone root [⟨none, root.toList⟩] shape)
include placed

/-- The root names no parent and is the only node that does not. -/
theorem names_none {id : Nat} : Names shape id none ↔ root = some id := by
  have enumerated := (placed.holding _ List.mem_cons_self).2 id
  exact enumerated.symm.trans (Option.mem_toList.trans Option.mem_def)

/-- A list enumerates the nodes that name its owner. -/
theorem listed_iff {id child : Nat} {node : Node ι} (found : shape.nodes id = some node) :
    child ∈ children node.info ↔ Names shape child (some id) :=
  (placed.closed id node found (by simp [Opening.id])).2 child

/-- What is reached is there. -/
theorem path_registered {path : List Nat} {id : Nat} (reached : PathTo children shape path id) :
    ∃ node, shape.nodes id = some node := by
  cases reached with
  | root first =>
    rw [placed.rooted] at first
    obtain ⟨node, found, _⟩ := placed.names_none.mpr first
    exact ⟨node, found⟩
  | child above there listed =>
    obtain ⟨node, found, _⟩ := (placed.listed_iff there).mp (List.mem_of_getElem? listed)
    exact ⟨node, found⟩

/-- What is there is reached, by induction on its depth. -/
theorem registered_path (depth : Nat) : ∀ id node, shape.nodes id = some node →
    node.depth = depth → ∃ path, PathTo children shape path id := by
  induction depth using Nat.strongRecOn with
  | _ depth ih =>
    intro id node found deep
    rcases placed.lineage id node found with ⟨top, _⟩ | ⟨above, parent, named, there, deeper⟩
    · exact ⟨[], .root (placed.rooted.trans (placed.names_none.mp ⟨node, found, top⟩))⟩
    · obtain ⟨path, reached⟩ := ih parent.depth (by omega) above parent there rfl
      have listed := (placed.listed_iff there).mpr ⟨node, found, named⟩
      obtain ⟨position, here⟩ := List.getElem?_of_mem listed
      exact ⟨position :: path, .child reached there here⟩

/-- There is only one way to a node. -/
theorem path_unique {first : List Nat} {id : Nat} (one : PathTo children shape first id) :
    ∀ second, PathTo children shape second id → first = second := by
  induction one with
  | root top =>
    intro second other
    rw [placed.rooted] at top
    cases other with
    | root => rfl
    | child _ there listed =>
      have named := (placed.listed_iff there).mp (List.mem_of_getElem? listed)
      cases named.unique (placed.names_none.mpr top)
  | child _ there listed ih =>
    intro second other
    have named := (placed.listed_iff there).mp (List.mem_of_getElem? listed)
    cases other with
    | root top =>
      rw [placed.rooted] at top
      cases named.unique (placed.names_none.mpr top)
    | child above again relisted =>
      cases named.unique ((placed.listed_iff again).mp (List.mem_of_getElem? relisted))
      cases there.symm.trans again
      have distinct := (placed.closed _ _ there (by simp [Opening.id])).1
      obtain ⟨inside, here⟩ := List.getElem?_eq_some_iff.mp listed
      obtain ⟨within, again⟩ := List.getElem?_eq_some_iff.mp relisted
      rw [ih _ above, distinct.getElem_inj_iff.mp (here.trans again.symm)]

end Placed

end Hierarchy
