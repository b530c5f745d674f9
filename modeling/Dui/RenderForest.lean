import Dui.RenderLayout

/-! The tree of render objects: what of it layout and marking leave alone, and what every
operation keeps of it. Children name their parents and parents their children, no object
is above itself, and every object only has children of the protocol it accepts. -/
namespace Dui
open Effect ForestEdit

/-! What layout sets, and the rest. -/

/-- The list before any layout. -/
def FixedExtentList.unlaid (list : FixedExtentList) : FixedExtentList :=
  { list with
    requestedChildRange := none, firstVisibleIndex := 0, firstVisibleChild := 0
    visibleChildCount := 0 }

/-- The fields of the class before any layout. -/
def RenderKind.unlaid : RenderKind → RenderKind
  | .viewport scrollOffset _ => .viewport scrollOffset 0
  | .fixedExtentList list => .fixedExtentList list.unlaid
  | kind => kind

/-- The object before any layout. -/
def RenderObject.unlaid (object : RenderObject) : RenderObject :=
  { object with
    kind := object.kind.unlaid, needsLayout := true, constraints := none, measure := {}
    offset := {} }

/-- The objects as they are before any layout. -/
def RenderOwner.tree (owner : RenderOwner) : RenderId → Option RenderObject :=
  fun id => (owner.objects id).map RenderObject.unlaid

namespace RenderKind

@[simp] theorem unlaid_unlaid (kind : RenderKind) : kind.unlaid.unlaid = kind.unlaid := by
  cases kind <;> rfl

@[simp] theorem unlaid_is_box (kind : RenderKind) : kind.unlaid.isBox = kind.isBox := by
  cases kind <;> rfl

@[simp] theorem unlaid_boundary (kind : RenderKind) :
    kind.unlaid.hasRepaintBoundary = kind.hasRepaintBoundary := by
  cases kind <;> rfl

@[simp] theorem unlaid_adopts (kind child : RenderKind) :
    kind.unlaid.validateChildProtocol child = kind.validateChildProtocol child := by
  cases kind <;> rfl

@[simp] theorem unlaid_protocol (kind child : RenderKind) :
    kind.unlaid.validateChildProtocol child.unlaid = kind.validateChildProtocol child := by
  rw [unlaid_adopts]
  unfold validateChildProtocol
  rw [unlaid_is_box]

@[simp] theorem unlaid_count (kind : RenderKind) (count : Nat) :
    kind.unlaid.validateChildCount count = kind.validateChildCount count := by
  cases kind <;> rfl

end RenderKind

section Fields
variable (object : RenderObject)

@[simp] theorem unlaid_id : object.unlaid.id = object.id := rfl

@[simp] theorem unlaid_parent : object.unlaid.parent = object.parent := rfl

@[simp] theorem unlaid_children : object.unlaid.children = object.children := rfl

@[simp] theorem unlaid_kind : object.unlaid.kind = object.kind.unlaid := rfl

end Fields

section Marks
variable (owner : RenderOwner) (id : RenderId)

@[simp] theorem mark_paint_objects : (owner.markNeedsPaint id).objects = owner.objects := rfl

@[simp] theorem mark_paint_next : (owner.markNeedsPaint id).nextId = owner.nextId := rfl

@[simp] theorem mark_paint_root : (owner.markNeedsPaint id).root = owner.root := rfl

@[simp] theorem modify_next (f : RenderObject → RenderObject) :
    (owner.modify id f).nextId = owner.nextId := rfl

@[simp] theorem modify_root (f : RenderObject → RenderObject) :
    (owner.modify id f).root = owner.root := rfl

theorem modify_objects (f : RenderObject → RenderObject) (other : RenderId) :
    (owner.modify id f).objects other =
      if other = id then (owner.objects id).map f else owner.objects other := by
  simp only [RenderOwner.modify, Function.update_apply]

theorem require_layout_objects (other : RenderId) : (owner.requireLayout id).objects other =
    (owner.objects other).map fun object =>
      if other = id then { object with needsLayout := true } else object := by
  unfold RenderOwner.requireLayout
  by_cases same : other = id
  · subst same
    cases found : owner.objects other with
    | none => simp [found, modify_objects]
    | some object =>
      cases dirty : object.needsLayout with
      | true =>
        obtain ⟨id, parent, children, kind, needsLayout, constraints, measure, offset⟩ := object
        cases dirty
        simp [found]
      | false => simp [found, dirty, modify_objects]
  · split <;> simp [same, modify_objects]

@[simp] theorem require_layout_next : (owner.requireLayout id).nextId = owner.nextId := by
  unfold RenderOwner.requireLayout
  split <;> rfl

@[simp] theorem require_layout_root : (owner.requireLayout id).root = owner.root := by
  unfold RenderOwner.requireLayout
  split <;> rfl

theorem mark_along_objects (line : List RenderId) (other : RenderId) :
    ∀ owner : RenderOwner, (owner.markLayoutAlong line).objects other =
      (owner.objects other).map fun object =>
        if other ∈ line then { object with needsLayout := true } else object := by
  induction line with
  | nil => simp [RenderOwner.markLayoutAlong]
  | cons first rest ih =>
    intro owner
    rw [RenderOwner.markLayoutAlong, ih, mark_paint_objects, require_layout_objects, Option.map_map]
    congr 1
    funext object
    by_cases same : other = first <;> by_cases listed : other ∈ rest <;> simp [same, listed]

/-- Marking is needing layout from the object up to the root. -/
theorem mark_layout_objects (other : RenderId) : (owner.markNeedsLayout id).objects other =
    (owner.objects other).map fun object =>
      if other ∈ owner.line id then { object with needsLayout := true } else object :=
  mark_along_objects _ other owner

theorem mark_along_next (line : List RenderId) : ∀ owner : RenderOwner,
    (owner.markLayoutAlong line).nextId = owner.nextId ∧
      (owner.markLayoutAlong line).root = owner.root := by
  induction line with
  | nil => exact fun owner => ⟨rfl, rfl⟩
  | cons first rest ih =>
    intro owner
    obtain ⟨next, root⟩ := ih ((owner.requireLayout first).markNeedsPaint first)
    exact ⟨next.trans (require_layout_next owner first),
      root.trans (require_layout_root owner first)⟩

@[simp] theorem mark_layout_next : (owner.markNeedsLayout id).nextId = owner.nextId :=
  (mark_along_next _ owner).1

@[simp] theorem mark_layout_root : (owner.markNeedsLayout id).root = owner.root :=
  (mark_along_next _ owner).2

theorem mark_layout_tree : (owner.markNeedsLayout id).tree = owner.tree := by
  funext other
  unfold RenderOwner.tree
  rw [mark_layout_objects, Option.map_map]
  congr 1
  funext object
  simp only [Function.comp_apply]
  split <;> rfl

end Marks

/-! The invariant of the tree. -/

/-- A tree of render objects that only has identities issued so far. -/
structure RenderTree.Sound (tree : RenderId → Option RenderObject) (nextId : RenderId) :
    Prop where
  forest : Forest renderKeys tree
  issued : ∀ id, (tree id).isSome → 0 < id ∧ id < nextId
  linked : ∀ {id object}, tree id = some object →
    ∀ child, child ∈ object.children ↔ ParentOf renderKeys tree child id
  distinct : ∀ {id object}, tree id = some object → object.children.Nodup
  accepted : ∀ {id object child below}, tree id = some object → tree child = some below →
    child ∈ object.children → object.kind.validateChildProtocol below.kind = .ok ()
  counted : ∀ {id object}, tree id = some object →
    object.kind.validateChildCount object.children.length = .ok ()

section Reading
variable {owner next : RenderOwner} {id other parent child : RenderId} {object : RenderObject}

theorem tree_of_object (found : owner.objects id = some object) :
    owner.tree id = some object.unlaid := by
  simp [RenderOwner.tree, found]

theorem object_of_tree {unlaid : RenderObject} (held : owner.tree id = some unlaid) :
    ∃ object, owner.objects id = some object ∧ object.unlaid = unlaid :=
  Option.map_eq_some_iff.mp held

theorem object_keyed (forest : Forest renderKeys owner.tree) (found : owner.objects id = some object) :
    object.id = id := by
  have held := tree_of_object found
  exact forest.keyed id object.unlaid held

theorem parent_of_objects :
    ParentOf renderKeys owner.objects id parent ↔ ParentOf renderKeys owner.tree id parent := by
  constructor
  · rintro ⟨object, found, named⟩
    exact ⟨object.unlaid, tree_of_object found, named⟩
  · rintro ⟨unlaid, held, named⟩
    obtain ⟨object, found, rfl⟩ := object_of_tree held
    exact ⟨object, found, named⟩

theorem line_tree (steps : Nat) : ∀ id, ForestEdit.line renderKeys owner.objects steps id =
    ForestEdit.line renderKeys owner.tree steps id := by
  induction steps with
  | zero => exact fun _ => rfl
  | succ steps ih =>
    intro id
    have same : (owner.objects id).bind renderKeys.parent =
        (owner.tree id).bind renderKeys.parent := by
      cases found : owner.objects id <;> simp [RenderOwner.tree, found, renderKeys]
    rw [ForestEdit.line, ForestEdit.line, same]
    split
    · rfl
    · rw [ih]

namespace RenderTree.Sound
variable {tree : RenderId → Option RenderObject} {nextId : RenderId}

theorem among (sound : RenderTree.Sound tree nextId) (there : (tree id).isSome) :
    id ∈ List.range nextId := List.mem_range.mpr (sound.issued id there).2

theorem rooted (sound : RenderTree.Sound tree nextId) (there : (tree id).isSome) :
    Rooted renderKeys tree id :=
  sound.forest.rooted (fun _ => sound.among) there

/-- An object is not among what is above its parent. -/
theorem not_above (sound : RenderTree.Sound tree nextId)
    (child : ParentOf renderKeys tree id parent) :
    ¬Relation.ReflTransGen (ParentOf renderKeys tree) parent id :=
  fun above => sound.forest.acyclic id (Relation.TransGen.head' child above)

theorem parent_ne (sound : RenderTree.Sound tree nextId)
    (child : ParentOf renderKeys tree id parent) : id ≠ parent := by
  rintro rfl
  exact sound.not_above child .refl

/-- What is below two siblings is below one of them only. -/
theorem siblings_apart (sound : RenderTree.Sound tree nextId) {one another : RenderId}
    (first : ParentOf renderKeys tree one parent) (second : ParentOf renderKeys tree another parent)
    (below : Relation.ReflTransGen (ParentOf renderKeys tree) one another) : one = another := by
  rcases Relation.ReflTransGen.cases_head below with same | ⟨up, named, above⟩
  · exact same
  · cases first.unique named
    exact absurd above (sound.not_above second)

end RenderTree.Sound

theorem line_own : id ∈ owner.line id := line_self _ id

/-- The line of an object has what is above it. -/
theorem mem_line (forest : Forest renderKeys owner.tree)
    (issued : ∀ id, (owner.tree id).isSome → id < owner.nextId) (there : (owner.tree id).isSome) :
    other ∈ owner.line id ↔ Relation.ReflTransGen (ParentOf renderKeys owner.tree) id other := by
  have found := mem_line_iff forest (fun _ there => List.mem_range.mpr (issued _ there)) there
    (y := other)
  rw [List.length_range] at found
  rw [← found, RenderOwner.line, line_tree]

end Reading

/-! What the operations keep. -/

section Operations
variable {tree after : RenderId → Option RenderObject} {nextId id parent child : RenderId}
variable {object : RenderObject}

/-- The links of an object. -/
def RenderObject.links (object : RenderObject) : RenderId × Option RenderId × List RenderId :=
  (object.id, object.parent, object.children)

/-- Two classes that adopt, and are adopted by, the same objects. -/
structure RenderKind.Alike (kind other : RenderKind) : Prop where
  box : kind.isBox = other.isBox
  protocol : ∀ child, kind.validateChildProtocol child = other.validateChildProtocol child
  count : ∀ count, kind.validateChildCount count = other.validateChildCount count

theorem RenderKind.protocol_child {kind child other : RenderKind}
    (box : child.isBox = other.isBox) :
    kind.validateChildProtocol child = kind.validateChildProtocol other := by
  unfold validateChildProtocol
  rw [box]

theorem RenderKind.count_fewer {kind : RenderKind} {count more : Nat} (fewer : count ≤ more)
    (counted : kind.validateChildCount more = .ok ()) :
    kind.validateChildCount count = .ok () := by
  have enough : ∀ failure : Failure,
      (if more > 1 then throw failure else pure () : Except Failure Unit) = .ok () →
      (if count > 1 then throw failure else pure () : Except Failure Unit) = .ok () := by
    intro failure passed
    split at passed
    · cases passed
    · rw [if_neg (by omega)]
      rfl
  cases kind with
  | semanticsBox => exact enough _ counted
  | sliverToBoxAdapter => exact enough _ counted
  | _ => exact counted

section Relinked
variable (linked : ∀ id, (after id).map RenderObject.links = (tree id).map RenderObject.links)
include linked

theorem relinked_keys (id : RenderId) :
    (after id).map renderKeys.link = (tree id).map renderKeys.link := by
  have same := congrArg (Option.map fun links => (links.1, links.2.1)) (linked id)
  rwa [Option.map_map, Option.map_map] at same

/-- Objects that keep their links may become others of a like class. -/
theorem RenderTree.Sound.relinked (sound : RenderTree.Sound tree nextId)
    (alike : ∀ id before object, tree id = some before → after id = some object →
      object.kind.Alike before.kind) : RenderTree.Sound after nextId := by
  have keys := relinked_keys linked
  have there : ∀ id, (after id).isSome = (tree id).isSome := by
    intro id
    have same := congrArg Option.isSome (linked id)
    rwa [Option.isSome_map, Option.isSome_map] at same
  have links : ∀ {id object}, after id = some object → ∃ before, tree id = some before ∧
      before.children = object.children ∧ object.kind.Alike before.kind := by
    intro id object found
    have same := linked id
    rw [found] at same
    obtain ⟨before, held, links⟩ := Option.map_eq_some_iff.mp same.symm
    exact ⟨before, held, congrArg (·.2.2) links, alike id before object held found⟩
  refine ⟨sound.forest.of_same keys, fun id present => ?_, fun {id object} found child => ?_,
    fun {id object} found => ?_, fun {id object child below} found also listed => ?_,
    fun {id object} found => ?_⟩
  · rw [there] at present
    exact sound.issued id present
  · obtain ⟨before, held, same, _⟩ := links found
    rw [← same, parent_of_same keys]
    exact sound.linked held child
  · obtain ⟨before, held, same, _⟩ := links found
    exact same ▸ sound.distinct held
  · obtain ⟨before, held, same, like⟩ := links found
    obtain ⟨lower, there, _, likewise⟩ := links also
    rw [like.protocol, RenderKind.protocol_child likewise.box]
    exact sound.accepted held there (same ▸ listed)
  · obtain ⟨before, held, same, like⟩ := links found
    rw [like.count, ← same]
    exact sound.counted held

end Relinked

/-- A new object, without a parent or children. -/
theorem RenderTree.Sound.construct (sound : RenderTree.Sound tree nextId) (issued : 0 < nextId)
    (kind : RenderKind) :
    RenderTree.Sound (Function.update tree nextId (some { id := nextId, kind })) (nextId + 1) := by
  have free : tree nextId = none := by
    cases there : tree nextId with
    | none => rfl
    | some object => exact absurd (sound.issued nextId (by rw [there]; rfl)).2 (lt_irrefl _)
  have cases : ∀ {id object},
      Function.update tree nextId (some { id := nextId, kind }) id = some object →
      (id = nextId ∧ object = { id := nextId, kind }) ∨ (id ≠ nextId ∧ tree id = some object) := by
    intro id object found
    by_cases same : id = nextId
    · subst same
      rw [Function.update_self] at found
      exact .inl ⟨rfl, (Option.some.inj found).symm⟩
    · rw [Function.update_of_ne same] at found
      exact .inr ⟨same, found⟩
  have kept : ∀ {id object}, tree id = some object →
      Function.update tree nextId (some { id := nextId, kind }) id = some object := by
    intro id object held
    rwa [Function.update_of_ne]
    rintro rfl
    rw [free] at held
    cases held
  have parents : ∀ child parent, ParentOf renderKeys
      (Function.update tree nextId (some { id := nextId, kind })) child parent ↔
        ParentOf renderKeys tree child parent := by
    intro child parent
    constructor
    · rintro ⟨object, found, named⟩
      rcases cases found with ⟨_, rfl⟩ | ⟨_, held⟩
      · cases named
      · exact ⟨object, held, named⟩
    · rintro ⟨object, held, named⟩
      exact ⟨object, kept held, named⟩
  refine ⟨forest_of_rooted (fun id object found => ?_) fun id there => ?_, fun id there => ?_,
    fun {id object} found child => ?_, fun {id object} found => ?_,
    fun {id object child below} found also listed => ?_, fun {id object} found => ?_⟩
  · rcases cases found with ⟨rfl, rfl⟩ | ⟨_, held⟩
    · rfl
    · exact sound.forest.keyed id object held
  · obtain ⟨object, found⟩ := Option.isSome_iff_exists.mp there
    rcases cases found with ⟨rfl, rfl⟩ | ⟨-, held⟩
    · exact .root found rfl
    · have rooted : Rooted renderKeys tree id := sound.rooted (by rw [held]; rfl)
      clear found held there
      induction rooted with
      | root held top => exact .root (kept held) top
      | child parent rooted ih => exact .child ((parents _ _).mpr parent) ih
  · obtain ⟨object, found⟩ := Option.isSome_iff_exists.mp there
    rcases cases found with ⟨rfl, _⟩ | ⟨_, held⟩
    · exact ⟨issued, Nat.lt_succ_self _⟩
    · have bounds := sound.issued id (by rw [held]; rfl)
      exact ⟨bounds.1, Nat.lt_succ_of_lt bounds.2⟩
  · rw [parents]
    rcases cases found with ⟨rfl, rfl⟩ | ⟨_, held⟩
    · constructor
      · exact nofun
      · intro named
        have there := sound.forest.parent_present child id named
        rw [free] at there
        cases there
    · exact sound.linked held child
  · rcases cases found with ⟨_, rfl⟩ | ⟨_, held⟩
    · exact List.nodup_nil
    · exact sound.distinct held
  · rcases cases found with ⟨_, rfl⟩ | ⟨_, held⟩
    · cases listed
    · obtain ⟨lower, there, _⟩ := (sound.linked held child).mp listed
      cases (kept there).symm.trans also
      exact sound.accepted held there listed
  · rcases cases found with ⟨_, rfl⟩ | ⟨_, held⟩
    · cases kind <;> rfl
    · exact sound.counted held

theorem relink_id (before : RenderObject) (children : List RenderId) :
    (before.relink parent children).id = before.id := by
  unfold RenderObject.relink RenderObject.orphan
  repeat' split
  all_goals rfl

theorem relink_kind (before : RenderObject) (children : List RenderId) :
    (before.relink parent children).kind = before.kind := by
  unfold RenderObject.relink RenderObject.orphan
  repeat' split
  all_goals rfl

theorem relink_children (before : RenderObject) (children : List RenderId) :
    (before.relink parent children).children =
      if before.id = parent then children else before.children := by
  unfold RenderObject.relink RenderObject.orphan
  repeat' split
  all_goals rfl

theorem relink_parent (before : RenderObject) (children : List RenderId) :
    (before.relink parent children).parent =
      if before.id = parent then before.parent
      else if before.id ∈ children then some parent
      else if before.parent = some parent then none else before.parent := by
  unfold RenderObject.relink RenderObject.orphan
  repeat' split
  all_goals rfl

/-- Where an object adopts children that are above it nowhere and no other's. -/
structure Adoptable (tree : RenderId → Option RenderObject) (parent : RenderId)
    (object : RenderObject) (children : List RenderId) : Prop where
  held : tree parent = some object
  distinct : children.Nodup
  counted : object.kind.validateChildCount children.length = .ok ()
  apart : ∀ child ∈ children, ¬Relation.ReflTransGen (ParentOf renderKeys tree) parent child
  free : ∀ child ∈ children, ∃ below, tree child = some below ∧
    (below.parent = none ∨ below.parent = some parent) ∧
    object.kind.validateChildProtocol below.kind = .ok ()

/-- The tree once an object has these children. -/
def adopted (tree : RenderId → Option RenderObject) (parent : RenderId)
    (children : List RenderId) : RenderId → Option RenderObject :=
  fun id => (tree id).map (·.relink parent children)

section Adopting
variable {children : List RenderId} (sound : RenderTree.Sound tree nextId)
variable (adoptable : Adoptable tree parent object children)
include sound adoptable

omit adoptable in
theorem adopted_object {now : RenderObject} (found : adopted tree parent children id = some now) :
    ∃ before, tree id = some before ∧ before.id = id ∧ now = before.relink parent children := by
  obtain ⟨before, held, rfl⟩ := Option.map_eq_some_iff.mp found
  exact ⟨before, held, sound.forest.keyed id before held, rfl⟩

omit sound in
theorem adopted_outside : parent ∉ children := fun listed => adoptable.apart parent listed .refl

/-- Who is whose parent afterwards. -/
theorem adopted_parent {up : RenderId} :
    ParentOf renderKeys (adopted tree parent children) id up ↔
      (id ∈ children ∧ up = parent) ∨
        (id ∉ children ∧ up ≠ parent ∧ ParentOf renderKeys tree id up) := by
  have outside := adopted_outside adoptable
  constructor
  · rintro ⟨now, found, named⟩
    obtain ⟨before, held, keyed, rfl⟩ := adopted_object sound found
    change (before.relink parent children).parent = some up at named
    rw [relink_parent, keyed] at named
    split at named
    case isTrue same =>
      subst same
      have child : ParentOf renderKeys tree id up := ⟨before, held, named⟩
      exact .inr ⟨outside, (sound.parent_ne child).symm, child⟩
    case isFalse =>
      split at named
      case isTrue listed => exact .inl ⟨listed, (Option.some.inj named).symm⟩
      case isFalse unlisted =>
        split at named
        case isTrue => cases named
        case isFalse other =>
          refine .inr ⟨unlisted, ?_, before, held, named⟩
          rintro rfl
          exact other named
  · intro told
    have there : (tree id).isSome := by
      rcases told with ⟨listed, _⟩ | ⟨_, _, before, held, _⟩
      · obtain ⟨before, held, _⟩ := adoptable.free id listed
        rw [held]
        rfl
      · rw [held]
        rfl
    obtain ⟨before, held⟩ := Option.isSome_iff_exists.mp there
    have keyed : before.id = id := sound.forest.keyed id before held
    refine ⟨before.relink parent children, by simp [adopted, held], ?_⟩
    change (before.relink parent children).parent = some up
    rw [relink_parent, keyed]
    rcases told with ⟨listed, rfl⟩ | ⟨unlisted, other, _, also, named⟩
    · rw [if_neg (by rintro rfl; exact outside listed), if_pos listed]
    · cases held.symm.trans also
      change before.parent = some up at named
      rw [named, if_neg unlisted, if_neg fun same => other (Option.some.inj same), ite_self]

theorem adopted_root {top : RenderObject} (held : tree id = some top) (unlisted : id ∉ children)
    (up : top.parent = none ∨ top.parent = some parent) :
    Rooted renderKeys (adopted tree parent children) id := by
  refine .root (e := top.relink parent children) (by simp [adopted, held]) ?_
  cases found : (top.relink parent children).parent with
  | none => exact found
  | some above =>
    have named : ParentOf renderKeys (adopted tree parent children) id above :=
      ⟨top.relink parent children, by simp [adopted, held], found⟩
    rcases (adopted_parent sound adoptable).mp named with
      ⟨listed, _⟩ | ⟨_, other, before, also, kept⟩
    · exact absurd listed unlisted
    · cases held.symm.trans also
      change top.parent = some above at kept
      rcases up with up | up
      · cases up.symm.trans kept
      · exact absurd (Option.some.inj (kept.symm.trans up)) other

/-- The root above the parent stays where it is. -/
theorem adopted_above (rooted : Rooted renderKeys tree id)
    (above : Relation.ReflTransGen (ParentOf renderKeys tree) parent id) :
    Rooted renderKeys (adopted tree parent children) id := by
  induction rooted with
  | root held top =>
    have unlisted := fun listed => adoptable.apart _ listed above
    exact adopted_root sound adoptable held unlisted (.inl top)
  | @child id up named rooted ih =>
    have unlisted : id ∉ children := fun listed => adoptable.apart id listed above
    have other : up ≠ parent := by
      rintro rfl
      exact sound.not_above named above
    exact .child ((adopted_parent sound adoptable).mpr (.inr ⟨unlisted, other, named⟩))
      (ih (above.tail named))

theorem adopted_rooted (rooted : Rooted renderKeys tree id) :
    Rooted renderKeys (adopted tree parent children) id := by
  have top := adopted_above sound adoptable
    (sound.rooted (by rw [adoptable.held]; rfl)) Relation.ReflTransGen.refl
  induction rooted with
  | @root id object held alone =>
    by_cases listed : id ∈ children
    · exact .child ((adopted_parent sound adoptable).mpr (.inl ⟨listed, rfl⟩)) top
    · exact adopted_root sound adoptable held listed (.inl alone)
  | @child id up named rooted ih =>
    by_cases listed : id ∈ children
    · exact .child ((adopted_parent sound adoptable).mpr (.inl ⟨listed, rfl⟩)) top
    · by_cases same : up = parent
      · obtain ⟨object, held, up⟩ := named
        exact adopted_root sound adoptable held listed (.inr (same ▸ up))
      · exact .child ((adopted_parent sound adoptable).mpr (.inr ⟨listed, same, named⟩)) ih

theorem RenderTree.Sound.adopted : RenderTree.Sound (adopted tree parent children) nextId := by
  have there : ∀ id, (Dui.adopted tree parent children id).isSome = (tree id).isSome := by
    intro id
    simp [Dui.adopted]
  refine ⟨forest_of_rooted (fun id now found => ?_) fun id present => ?_, fun id present => ?_,
    fun {id now} found child => ?_, fun {id now} found => ?_,
    fun {id now child below} found also listed => ?_, fun {id now} found => ?_⟩
  · obtain ⟨before, held, keyed, rfl⟩ := adopted_object sound found
    exact (relink_id before children).trans keyed
  · exact adopted_rooted sound adoptable (sound.rooted (there id ▸ present))
  · exact sound.issued id (there id ▸ present)
  · obtain ⟨before, held, keyed, rfl⟩ := adopted_object sound found
    rw [relink_children, keyed, adopted_parent sound adoptable]
    split
    case isTrue same =>
      subst same
      simp
    case isFalse other =>
      rw [sound.linked held child]
      constructor
      · intro named
        refine .inr ⟨fun listed => ?_, other, named⟩
        obtain ⟨below, child_held, free, _⟩ := adoptable.free child listed
        obtain ⟨_, again, up⟩ := named
        cases child_held.symm.trans again
        change below.parent = some id at up
        rcases free with free | free
        · cases free.symm.trans up
        · exact other (Option.some.inj (up.symm.trans free))
      · rintro (⟨_, same⟩ | ⟨_, _, named⟩)
        · exact absurd same other
        · exact named
  · obtain ⟨before, held, keyed, rfl⟩ := adopted_object sound found
    rw [relink_children]
    split
    · exact adoptable.distinct
    · exact sound.distinct held
  · obtain ⟨before, held, keyed, rfl⟩ := adopted_object sound found
    obtain ⟨lower, child_held, _, rfl⟩ := adopted_object sound also
    rw [relink_kind, relink_kind]
    rw [relink_children, keyed] at listed
    split at listed
    case isTrue same =>
      subst same
      cases adoptable.held.symm.trans held
      obtain ⟨_, again, _, fits⟩ := adoptable.free child listed
      cases child_held.symm.trans again
      exact fits
    case isFalse => exact sound.accepted held child_held listed
  · obtain ⟨before, held, keyed, rfl⟩ := adopted_object sound found
    rw [relink_kind, relink_children, keyed]
    split
    case isTrue same =>
      subst same
      cases adoptable.held.symm.trans held
      exact adoptable.counted
    case isFalse => exact sound.counted held

end Adopting

/-- The tree once an object is gone. -/
def without (tree : RenderId → Option RenderObject) (gone : RenderId) :
    RenderId → Option RenderObject :=
  fun id => if id = gone then none else (tree id).map fun object => (object.unchild gone).orphan gone

section Destroying
variable {gone : RenderId}

theorem without_object {now : RenderObject} (found : without tree gone id = some now) :
    id ≠ gone ∧ ∃ before, tree id = some before ∧ now = (before.unchild gone).orphan gone := by
  unfold without at found
  split at found
  · cases found
  · obtain ⟨before, held, rfl⟩ := Option.map_eq_some_iff.mp found
    exact ⟨‹_›, before, held, rfl⟩

theorem orphan_parent (before : RenderObject) : (before.orphan gone).parent =
    if before.parent = some gone then none else before.parent := by
  unfold RenderObject.orphan
  split <;> rfl

theorem orphan_kind (before : RenderObject) : (before.orphan gone).kind = before.kind := by
  unfold RenderObject.orphan
  split <;> rfl

theorem orphan_children (before : RenderObject) :
    (before.orphan gone).children = before.children := by
  unfold RenderObject.orphan
  split <;> rfl

theorem orphan_id (before : RenderObject) : (before.orphan gone).id = before.id := by
  unfold RenderObject.orphan
  split <;> rfl

theorem without_parent {up : RenderId} : ParentOf renderKeys (without tree gone) id up ↔
    id ≠ gone ∧ up ≠ gone ∧ ParentOf renderKeys tree id up := by
  constructor
  · rintro ⟨now, found, named⟩
    obtain ⟨different, before, held, rfl⟩ := without_object found
    change ((before.unchild gone).orphan gone).parent = some up at named
    rw [orphan_parent] at named
    change (if before.parent = some gone then none else before.parent) = some up at named
    split at named
    · cases named
    · refine ⟨different, ?_, before, held, named⟩
      rintro rfl
      contradiction
  · rintro ⟨different, other, before, held, named⟩
    change before.parent = some up at named
    refine ⟨_, by rw [without, if_neg different, held]; rfl, ?_⟩
    change ((before.unchild gone).orphan gone).parent = some up
    rw [orphan_parent]
    change (if before.parent = some gone then none else before.parent) = some up
    rw [named, if_neg fun same => other (Option.some.inj same)]

theorem without_rooted (rooted : Rooted renderKeys tree id) (different : id ≠ gone) :
    Rooted renderKeys (without tree gone) id := by
  have top : ∀ {id object}, id ≠ gone → tree id = some object →
      (object.parent = none ∨ object.parent = some gone) →
      Rooted renderKeys (without tree gone) id := by
    intro id object different held up
    refine .root (by rw [without, if_neg different, held]; rfl) ?_
    change ((object.unchild gone).orphan gone).parent = none
    rw [orphan_parent]
    split
    · rfl
    · exact up.resolve_right ‹_›
  induction rooted with
  | root held alone => exact top different held (.inl alone)
  | @child id up named rooted ih =>
    by_cases same : up = gone
    · obtain ⟨object, held, up⟩ := named
      exact top different held (.inr (same ▸ up))
    · exact .child (without_parent.mpr ⟨different, same, named⟩) (ih same)

theorem RenderTree.Sound.without (sound : RenderTree.Sound tree nextId) :
    RenderTree.Sound (without tree gone) nextId := by
  have there : ∀ {id now}, Dui.without tree gone id = some now → (tree id).isSome := by
    intro id now found
    obtain ⟨_, before, held, _⟩ := without_object found
    rw [held]
    rfl
  refine ⟨forest_of_rooted (fun id now found => ?_) fun id present => ?_, fun id present => ?_,
    fun {id now} found child => ?_, fun {id now} found => ?_,
    fun {id now child below} found also listed => ?_, fun {id now} found => ?_⟩
  · obtain ⟨_, before, held, rfl⟩ := without_object found
    change ((before.unchild gone).orphan gone).id = id
    exact (orphan_id _).trans (sound.forest.keyed id before held)
  · obtain ⟨now, found⟩ := Option.isSome_iff_exists.mp present
    exact without_rooted (sound.rooted (there found)) (without_object found).1
  · obtain ⟨now, found⟩ := Option.isSome_iff_exists.mp present
    exact sound.issued id (there found)
  · obtain ⟨different, before, held, rfl⟩ := without_object found
    rw [without_parent, ← sound.linked held child, orphan_children, RenderObject.unchild,
      List.mem_filter, decide_eq_true_iff]
    tauto
  · obtain ⟨_, before, held, rfl⟩ := without_object found
    rw [orphan_children]
    exact (sound.distinct held).filter _
  · obtain ⟨_, before, held, rfl⟩ := without_object found
    obtain ⟨_, lower, child_held, rfl⟩ := without_object also
    rw [orphan_children] at listed
    have among : child ∈ before.children := (List.mem_filter.mp listed).1
    have fits := sound.accepted held child_held among
    rw [orphan_kind, orphan_kind]
    exact fits
  · obtain ⟨_, before, held, rfl⟩ := without_object found
    rw [orphan_kind, orphan_children]
    exact RenderKind.count_fewer (List.length_filter_le _ _) (sound.counted held)

end Destroying

end Operations

end Dui
