import Dui.LayoutCurrent
import Dui.Transition

/-! Runs of a render owner: any construction, destruction, adoption, setting and layout, in
any order, whether they return or throw. The tree stays sound and the objects current. -/
namespace Dui
open Effect ForestEdit Transition

/-- The part of a mounted element tree that the render tree is made from: an element with
its render object, if it has one, and its children. -/
inductive MountedElement where
  | element (renderObject : Option RenderId) (children : List MountedElement)

mutual
/-- `collect_render_objects`. -/
def collectRenderObjects : MountedElement → Rendering (List RenderId)
  | .element (some renderObject) children => do
    let renderChildren ← collectAll children
    setRenderChildren renderObject (renderChildren.map some)
    pure [renderObject]
  | .element none children => collectAll children
/-- The loop over the children of an element. -/
def collectAll : List MountedElement → Rendering (List RenderId)
  | [] => pure []
  | first :: rest => do
    let collected ← collectRenderObjects first
    let others ← collectAll rest
    pure (collected ++ others)
end

/-- `BuildOwner::synchronize_render_tree`. -/
def synchronizeRenderTree (root : Option MountedElement) : Rendering Unit := do
  let roots ← match root with
    | none => pure []
    | some element => collectRenderObjects element
  setRenderChildren (← Run.read RenderOwner.root) (roots.map some)

/-- What is done to a render owner. -/
inductive RenderAction where
  | construct (arguments : RenderArguments)
  | destroy (id : RenderId)
  | setChildren (id : RenderId) (children : List (Option RenderId))
  | configure (id : RenderId) (setting : RenderSetting)
  | synchronize (root : Option MountedElement)
  | layout (viewport : BoxConstraints)

/-- The state that an action leaves, whether it returns or throws. The root is the owner's. -/
def renderStep (owner : RenderOwner) : RenderAction → Option RenderOwner
  | .construct arguments => (constructRender arguments owner).map Prod.snd
  | .destroy id =>
    if (owner.objects id).isSome ∧ id ≠ owner.root then some (owner.destroy id) else none
  | .setChildren id children => (setRenderChildren id children owner).map Prod.snd
  | .configure id setting => (configureRender id setting owner).map Prod.snd
  | .synchronize root => (synchronizeRenderTree root owner).map Prod.snd
  | .layout viewport => (layoutRender viewport owner).map Prod.snd

def renderMachine : Machine RenderOwner RenderAction where
  init := (· = RenderOwner.initially)
  step := renderStep

/-- The tree is sound, and the objects that do not need layout are current. Nothing keeps
the root from being adopted, but then the parent is never laid out. -/
structure RenderOwner.Orderly (owner : RenderOwner) : Prop where
  sound : RenderTree.Sound owner.tree owner.nextId
  root : ∃ view, owner.objects owner.root = some view ∧ view.kind = .view ∧ view.offset = {}
  above : owner.ParentDirty owner.root
  current : owner.Current

section Objects
variable {owner next mid : RenderOwner} {id parent child : RenderId} {object other : RenderObject}
variable {objects others : RenderId → Option RenderObject}

/-- An object is current because of its own fields and what its children measure. -/
theorem current_same (current : object.Current objects) (kind : other.kind = object.kind)
    (children : other.children = object.children)
    (constraints : other.constraints = object.constraints)
    (measure : other.measure = object.measure)
    (results : ∀ child ∈ object.children, (others child).map RenderObject.result =
      (objects child).map RenderObject.result) : other.Current others := by
  obtain ⟨given, under, settles⟩ := current
  refine ⟨given, constraints.trans under, ?_⟩
  have same : other.script given = object.script given := by
    unfold RenderObject.script
    rw [kind, children]
  rw [same, measure, kind]
  exact settles.congr (script_lays object given) results

/-- Marking an object leaves current what was so apart from it. -/
theorem mark_current (forest : Forest renderKeys mid.tree)
    (issued : ∀ id, (mid.tree id).isSome → id < mid.nextId) (there : (mid.tree id).isSome)
    (linked : ∀ id object child, mid.objects id = some object → child ∈ object.children →
      ParentOf renderKeys mid.tree child id)
    (current : ∀ other object, mid.objects other = some object → object.needsLayout = false →
      other ≠ id → object.Current mid.objects) : (mid.markNeedsLayout id).Current := by
  intro other now found clean
  rw [mark_layout_objects] at found
  obtain ⟨object, held, marked⟩ := Option.map_eq_some_iff.mp found
  split at marked
  case isTrue =>
    rw [← marked] at clean
    cases clean
  case isFalse below =>
    subst marked
    have different : other ≠ id := by
      rintro rfl
      exact below line_own
    refine current_same (current other object held clean different) rfl rfl rfl rfl ?_
    intro child listed
    have apart : child ∉ mid.line id := by
      intro above
      rw [mem_line forest issued there] at above below
      exact below (above.tail (linked other object child held listed))
    rw [mark_layout_objects]
    cases mid.objects child with
    | none => rfl
    | some child => simp [apart]

/-- An owner is orderly again once an object is marked that need not have been current, and
that may have become the root's parent. -/
theorem mark_orderly (sound : RenderTree.Sound mid.tree mid.nextId)
    (there : (mid.tree id).isSome)
    (root : ∃ view, mid.objects mid.root = some view ∧ view.kind = .view ∧ view.offset = {})
    (above : ∀ parent now, ParentOf renderKeys mid.tree mid.root parent →
      mid.objects parent = some now → parent ≠ id → now.needsLayout = true)
    (current : ∀ other object, mid.objects other = some object → object.needsLayout = false →
      other ≠ id → object.Current mid.objects) : (mid.markNeedsLayout id).Orderly := by
  refine ⟨?_, ?_, fun parent now named found => ?_, ?_⟩
  · rw [mark_layout_tree, mark_layout_next]
    exact sound
  · obtain ⟨view, held, kind, placed⟩ := root
    have marked := mark_layout_objects mid id mid.root
    rw [held, Option.map_some] at marked
    refine ⟨_, (congrArg _ (mark_layout_root mid id)).trans marked, ?_, ?_⟩
    · split <;> exact kind
    · split <;> exact placed
  · rw [mark_layout_tree, mark_layout_root] at named
    rw [mark_layout_objects] at found
    obtain ⟨before, held, rfl⟩ := Option.map_eq_some_iff.mp found
    by_cases same : parent = id
    · subst same
      rw [if_pos line_own]
    · split
      · rfl
      · exact above parent before named held same
  · exact mark_current sound.forest (fun id there => (sound.issued id there).2) there
      (fun id object child found listed => (sound.linked (tree_of_object found) child).mp listed)
      current

end Objects

/-! Adopting children. -/

/-- What a check that returns has seen. -/
theorem guard_ok {failure : Failure} {refused : Prop} [Decidable refused]
    {rest : Except Failure Unit}
    (passed : (do
      if refused then throw failure
      rest) = Except.ok ()) : ¬refused ∧ rest = .ok () := by
  by_cases held : refused
  · rw [if_pos held] at passed
    cases passed
  · rw [if_neg held] at passed
    exact ⟨held, passed⟩

section Adoption
variable {owner : RenderOwner} {id : RenderId} {object : RenderObject}
variable {seen children : List RenderId}

/-- What the checks of one child have seen. -/
theorem validate_child_ok (keyed : object.id = id) {child : RenderId}
    (passed : owner.validateChild object seen child = .ok ()) :
    ∃ below, owner.objects child = some below ∧
      (below.parent = none ∨ below.parent = some id) ∧
      object.kind.validateChildProtocol below.kind = .ok () ∧ child ∉ owner.line id ∧
      child ∉ seen := by
  unfold RenderOwner.validateChild at passed
  split at passed
  case h_1 => cases passed
  case h_2 below found =>
    obtain ⟨_, passed⟩ := guard_ok passed
    obtain ⟨free, passed⟩ := guard_ok passed
    rw [keyed] at free passed
    cases fits : object.kind.validateChildProtocol below.kind with
    | error failure =>
      rw [fits] at passed
      cases passed
    | ok value =>
      rw [fits] at passed
      obtain ⟨apart, passed⟩ := guard_ok passed
      have fresh : child ∉ seen := by
        intro listed
        rw [if_pos listed] at passed
        cases passed
      exact ⟨below, found, by tauto, fits, apart, fresh⟩

theorem validate_children_ok (keyed : object.id = id) :
    ∀ {seen}, owner.validateChildren object seen (children.map some) = .ok () →
      children.Nodup ∧ ∀ child ∈ children, child ∉ seen ∧
        ∃ below, owner.objects child = some below ∧
          (below.parent = none ∨ below.parent = some id) ∧
          object.kind.validateChildProtocol below.kind = .ok () ∧ child ∉ owner.line id := by
  induction children with
  | nil => exact fun _ => ⟨List.nodup_nil, nofun⟩
  | cons child rest ih =>
    intro seen passed
    rw [List.map_cons, RenderOwner.validateChildren] at passed
    cases first : owner.validateChild object seen child with
    | error failure =>
      rw [first] at passed
      cases passed
    | ok value =>
      rw [first] at passed
      obtain ⟨below, found, free, fits, apart, fresh⟩ := validate_child_ok keyed first
      obtain ⟨distinct, each⟩ := ih passed
      refine ⟨List.nodup_cons.mpr ⟨fun listed => ?_, distinct⟩, fun other listed => ?_⟩
      · exact (each child listed).1 List.mem_cons_self
      · rcases List.mem_cons.mp listed with rfl | listed
        · exact ⟨fresh, below, found, free, fits, apart⟩
        · obtain ⟨unseen, rest⟩ := each other listed
          exact ⟨fun listed => unseen (List.mem_cons_of_mem _ listed), rest⟩

/-- Children that pass the checks are there. -/
theorem validate_children_present {children : List (Option RenderId)} :
    ∀ {seen}, owner.validateChildren object seen children = .ok () →
      children.reduceOption.map some = children := by
  induction children with
  | nil => exact fun _ => rfl
  | cons child rest ih =>
    intro seen passed
    cases child with
    | none => cases passed
    | some child =>
      rw [RenderOwner.validateChildren] at passed
      cases first : owner.validateChild object seen child with
      | error failure =>
        rw [first] at passed
        cases passed
      | ok value =>
        rw [first] at passed
        exact congrArg (some child :: ·) (ih passed)

theorem adopt_tree : (owner.adopt id children).tree = adopted owner.tree id children := by
  funext other
  unfold RenderOwner.tree RenderOwner.adopt adopted
  rw [Option.map_map, Option.map_map]
  congr 1
  funext object
  simp only [Function.comp_apply, RenderObject.relink, RenderObject.orphan]
  repeat' split
  all_goals first | rfl | contradiction

theorem relink_result {id : RenderId} {children : List RenderId} (object : RenderObject) :
    (object.relink id children).result = object.result := by
  unfold RenderObject.relink RenderObject.orphan
  repeat' split
  all_goals rfl

/-- Adopting children that pass the checks, and marking. -/
theorem adopt_orderly (orderly : owner.Orderly) (found : owner.objects id = some object)
    (counted : object.kind.validateChildCount children.length = .ok ())
    (checked : owner.validateChildren object [] (children.map some) = .ok ()) :
    ((owner.adopt id children).markNeedsLayout id).Orderly := by
  obtain ⟨sound, ⟨view, rooted, kind, placed⟩, above, current⟩ := orderly
  have held := tree_of_object found
  have keyed := object_keyed sound.forest found
  obtain ⟨distinct, each⟩ := validate_children_ok keyed checked
  have adoptable : Adoptable owner.tree id object.unlaid children := by
    refine ⟨held, distinct, ?_, fun child listed above => ?_, fun child listed => ?_⟩
    · rw [unlaid_kind, RenderKind.unlaid_count]
      exact counted
    · obtain ⟨_, _, _, _, _, apart⟩ := each child listed
      rw [mem_line sound.forest (fun id there => (sound.issued id there).2)
        (by rw [held]; rfl)] at apart
      exact apart above
    · obtain ⟨_, below, there, free, fits, _⟩ := each child listed
      refine ⟨below.unlaid, tree_of_object there, free, ?_⟩
      rw [unlaid_kind, unlaid_kind, RenderKind.unlaid_protocol]
      exact fits
  have after : RenderTree.Sound (owner.adopt id children).tree
      (owner.adopt id children).nextId := by
    rw [adopt_tree]
    exact sound.adopted adoptable
  have there : ((owner.adopt id children).tree id).isSome := by
    rw [adopt_tree]
    simp [adopted, held]
  have results : ∀ before : RenderObject, (before.relink id children).result = before.result :=
    relink_result
  refine mark_orderly after there ?_ (fun parent now named found different => ?_) ?_
  · refine ⟨_, congrArg (Option.map _) rooted, (relink_kind view children).trans kind, ?_⟩
    exact (congrArg (·.2.2.1) (results view)).trans placed
  · obtain ⟨before, held, rfl⟩ := Option.map_eq_some_iff.mp found
    rw [adopt_tree] at named
    rcases (adopted_parent sound adoptable).mp named with ⟨_, same⟩ | ⟨_, _, named⟩
    · exact absurd same different
    · exact (congrArg Prod.fst (results before)).trans (above parent before named held)
  · intro other now found clean different
    obtain ⟨before, there, rfl⟩ := Option.map_eq_some_iff.mp found
    have named := object_keyed sound.forest there
    have same := results before
    simp only [RenderObject.result, Prod.mk.injEq] at same
    refine current_same (current other before there (same.1.symm.trans clean))
      (relink_kind before children) ?_ same.2.1 same.2.2.2 fun child listed => ?_
    · rw [relink_children, named, if_neg different]
    · change ((owner.objects child).map _).map _ = _
      rw [Option.map_map]
      congr 1
      funext below
      exact relink_result below

/-- What `set_children` does: nothing, where it has these children or throws, or it adopts them
all. -/
theorem set_children_cases {children : List (Option RenderId)} {outcome : Except Failure Unit}
    {next : RenderOwner} (ran : setRenderChildren id children owner = some (outcome, next)) :
    ∃ object, owner.objects id = some object ∧
      (next = owner ∧ (outcome = .ok () → object.children.map some = children) ∨
        outcome = .ok () ∧ ∃ present : List RenderId, children = present.map some ∧
          object.kind.validateChildCount present.length = .ok () ∧
          owner.validateChildren object [] (present.map some) = .ok () ∧
          next = (owner.adopt id present).markNeedsLayout id) := by
  rw [setRenderChildren, Run.read_ends_iff] at ran
  cases found : owner.objects id with
  | none =>
    rw [found] at ran
    cases ran
  | some object =>
    refine ⟨object, rfl, ?_⟩
    rw [found] at ran
    dsimp only at ran
    split at ran
    case isTrue same =>
      cases ran
      exact .inl ⟨rfl, fun _ => same⟩
    case isFalse =>
      cases counted : object.kind.validateChildCount children.length with
      | error failure =>
        rw [counted] at ran
        cases ran
        exact .inl ⟨rfl, nofun⟩
      | ok value =>
        rw [counted] at ran
        change (Run.resume (owner.validateChildren object [] children) >>= fun _ =>
          Run.change fun owner => (owner.adopt id children.reduceOption).markNeedsLayout id) owner =
            some (outcome, next) at ran
        cases checked : owner.validateChildren object [] children with
        | error failure =>
          rw [checked] at ran
          cases ran
          exact .inl ⟨rfl, nofun⟩
        | ok value =>
          rw [checked] at ran
          cases ran
          have present := validate_children_present checked
          rw [← present, List.length_map] at counted
          exact .inr ⟨rfl, _, present.symm, counted, present.symm ▸ checked, rfl⟩

theorem set_children_orderly (id : RenderId) (children : List (Option RenderId)) :
    Keeps RenderOwner.Orderly (setRenderChildren id children) := by
  intro owner outcome next orderly ran
  obtain ⟨object, found, ⟨rfl, _⟩ | ⟨_, _, _, counted, checked, rfl⟩⟩ := set_children_cases ran
  · exact orderly
  · exact adopt_orderly orderly found counted checked

section Collecting
variable {invariant : RenderOwner → Prop}

mutual
/-- Making the render tree keeps what adopting keeps, by induction on the element tree. -/
theorem collect_keeps (adopting : ∀ id children, Keeps invariant (setRenderChildren id children)) :
    ∀ element : MountedElement, Keeps invariant (collectRenderObjects element)
  | .element (some renderObject) children => by
    rw [collectRenderObjects]
    exact (collect_all_keeps adopting children).bind fun _ =>
      (adopting _ _).bind fun _ => Keeps.pure
  | .element none children => by
    rw [collectRenderObjects]
    exact collect_all_keeps adopting children
theorem collect_all_keeps
    (adopting : ∀ id children, Keeps invariant (setRenderChildren id children)) :
    ∀ elements : List MountedElement, Keeps invariant (collectAll elements)
  | [] => by
    rw [collectAll]
    exact Keeps.pure
  | first :: rest => by
    rw [collectAll]
    exact (collect_keeps adopting first).bind fun _ =>
      (collect_all_keeps adopting rest).bind fun _ => Keeps.pure
end

theorem synchronize_keeps
    (adopting : ∀ id children, Keeps invariant (setRenderChildren id children))
    (root : Option MountedElement) : Keeps invariant (synchronizeRenderTree root) := by
  cases root with
  | none => exact Keeps.pure.bind fun _ => Keeps.read.bind fun _ => adopting _ _
  | some element =>
    exact (collect_keeps adopting element).bind fun _ => Keeps.read.bind fun _ => adopting _ _

end Collecting

end Adoption

/-! Construction and destruction. -/

section Lifetimes
variable {owner : RenderOwner} {id : RenderId}

theorem construct_orderly (arguments : RenderArguments) :
    Keeps RenderOwner.Orderly (constructRender arguments) := by
  intro owner outcome next orderly ran
  obtain ⟨sound, ⟨view, rooted, kind, placed⟩, above, current⟩ := orderly
  have issued : 0 < owner.nextId := by
    have there := sound.issued owner.root (by rw [tree_of_object rooted]; rfl)
    exact there.1.trans there.2
  have free : owner.objects owner.nextId = none := by
    cases there : owner.objects owner.nextId with
    | none => rfl
    | some object =>
      have bounds := sound.issued owner.nextId (by rw [tree_of_object there]; rfl)
      exact absurd bounds.2 (lt_irrefl _)
  have present : ∀ {other object}, owner.objects other = some object → other ≠ owner.nextId := by
    rintro other object found rfl
    rw [free] at found
    cases found
  rw [constructRender, Run.read_ends_iff, Run.change_ends_iff] at ran
  cases made : constructedKind arguments with
  | error failure =>
    rw [made] at ran
    cases ran
    refine ⟨⟨sound.forest, fun id there => ?_, sound.linked, sound.distinct, sound.accepted,
      sound.counted⟩, ⟨view, rooted, kind, placed⟩, above, current⟩
    have bounds := sound.issued id there
    exact ⟨bounds.1, Nat.lt_succ_of_lt bounds.2⟩
  | ok made_kind =>
    rw [made] at ran
    cases ran
    have kept : ∀ {other object}, owner.objects other = some object →
        Function.update owner.objects owner.nextId (some { id := owner.nextId, kind := made_kind })
          other = some object := by
      intro other object found
      rwa [Function.update_of_ne (present found)]
    have tree : (fun other => (Function.update owner.objects owner.nextId
        (some { id := owner.nextId, kind := made_kind }) other).map RenderObject.unlaid) =
          Function.update owner.tree owner.nextId
            (some { id := owner.nextId, kind := made_kind.unlaid }) := by
      funext other
      by_cases same : other = owner.nextId
      · rw [same, Function.update_self, Function.update_self]
        rfl
      · rw [Function.update_of_ne same, Function.update_of_ne same]
        rfl
    refine ⟨?_, ⟨view, kept rooted, kind, placed⟩, fun parent now named there => ?_,
      fun other now found clean => ?_⟩
    · have whole := sound.construct issued made_kind.unlaid
      rw [← tree] at whole
      exact whole
    · obtain ⟨object, held, named⟩ := named
      change (Function.update owner.objects owner.nextId _ owner.root).map _ = _ at held
      rw [kept rooted] at held
      cases held
      have up : ParentOf renderKeys owner.tree owner.root parent :=
        ⟨view.unlaid, tree_of_object rooted, named⟩
      obtain ⟨_, held⟩ :=
        Option.isSome_iff_exists.mp (sound.forest.parent_present owner.root parent up)
      obtain ⟨before, held, _⟩ := object_of_tree held
      cases (kept held).symm.trans there
      exact above parent _ up held
    · change Function.update owner.objects owner.nextId _ other = some now at found
      by_cases same : other = owner.nextId
      · rw [same, Function.update_self] at found
        cases found
        cases clean
      · rw [Function.update_of_ne same] at found
        refine current_same (current other now found clean) rfl rfl rfl rfl fun child listed => ?_
        obtain ⟨_, held, _⟩ := parent_of_objects.mpr
          ((sound.linked (tree_of_object found) child).mp listed)
        change (Function.update owner.objects owner.nextId _ child).map _ = _
        rw [kept held, held]

/-- The owner once an object that is to be destroyed has left its parent. -/
structure Detached (owner mid : RenderOwner) (gone : RenderId) : Prop where
  nextId : mid.nextId = owner.nextId
  root : mid.root = owner.root
  objects : ∀ other, ∃ dirty, mid.objects other = (owner.objects other).map fun object =>
    { object.unchild gone with needsLayout := object.needsLayout || dirty }
  current : mid.Current

/-- The destructor lets the object leave its parent, if there is one, and forgets it. -/
theorem destroy_detaches (orderly : owner.Orderly) (found : (owner.objects id).isSome) :
    ∃ mid, owner.destroy id = mid.forget id ∧ Detached owner mid id := by
  obtain ⟨sound, -, -, current⟩ := orderly
  have alone : ∀ {other object}, owner.objects other = some object →
      ¬ParentOf renderKeys owner.tree id other → object.unchild id = object := by
    intro other object held apart
    have unlisted : id ∉ object.children := fun listed =>
      apart ((sound.linked (tree_of_object held) id).mp listed)
    have same : object.children.filter (· ≠ id) = object.children :=
      List.filter_eq_self.mpr fun child listed => by
        rw [decide_eq_true_iff]
        rintro rfl
        exact unlisted listed
    unfold RenderObject.unchild
    rw [same]
  obtain ⟨object, found⟩ := Option.isSome_iff_exists.mp found
  unfold RenderOwner.destroy
  rw [found, Option.bind_some]
  cases up : object.parent with
  | none =>
    refine ⟨owner, rfl, rfl, rfl, fun other => ⟨false, ?_⟩, current⟩
    cases held : owner.objects other with
    | none => rfl
    | some before =>
      have apart : ¬ParentOf renderKeys owner.tree id other := by
        rintro ⟨_, again, named⟩
        cases (tree_of_object found).symm.trans again
        cases up.symm.trans named
      simp [alone held apart]
  | some parent =>
    have named : ParentOf renderKeys owner.tree id parent :=
      ⟨object.unlaid, tree_of_object found, up⟩
    have detached : ∀ other, (owner.modify parent (·.unchild id)).objects other =
        (owner.objects other).map (·.unchild id) := by
      intro other
      rw [modify_objects]
      split
      case isTrue same => rw [same]
      case isFalse different =>
        cases held : owner.objects other with
        | none => rfl
        | some before =>
          have apart : ¬ParentOf renderKeys owner.tree id other := fun other_named =>
            different (other_named.unique named)
          simp [alone held apart]
    refine ⟨_, rfl, mark_layout_next _ _, mark_layout_root _ _, fun other =>
      ⟨decide (other ∈ (owner.modify parent (·.unchild id)).line parent), ?_⟩, ?_⟩
    · have marked := mark_layout_objects (owner.modify parent (·.unchild id)) parent other
      rw [detached, Option.map_map] at marked
      refine marked.trans ?_
      congr 1
      funext before
      by_cases above : other ∈ (owner.modify parent (·.unchild id)).line parent
      · simp only [Function.comp_apply, above, if_true, decide_true, Bool.or_true]
      · simp only [Function.comp_apply, above, if_false, decide_false, Bool.or_false]
        rfl
    · have keys : ∀ other, ((owner.modify parent (·.unchild id)).tree other).map renderKeys.link =
          (owner.tree other).map renderKeys.link := by
        intro other
        unfold RenderOwner.tree
        rw [detached, Option.map_map, Option.map_map, Option.map_map]
        rfl
      have there : ∀ other, ((owner.modify parent (·.unchild id)).tree other).isSome =
          (owner.tree other).isSome := by
        intro other
        have same := congrArg Option.isSome (keys other)
        rwa [Option.isSome_map, Option.isSome_map] at same
      refine mark_current (sound.forest.of_same keys)
        (fun other present => (sound.issued other (there other ▸ present)).2)
        (by rw [there]; exact sound.forest.parent_present id parent named) ?_ ?_
      · intro other now child held listed
        rw [detached] at held
        obtain ⟨before, first, rfl⟩ := Option.map_eq_some_iff.mp held
        have among : child ∈ before.children := (List.mem_filter.mp listed).1
        rw [parent_of_same keys]
        exact (sound.linked (tree_of_object first) child).mp among
      · intro other now held clean different
        have same := modify_objects owner parent (·.unchild id) other
        rw [if_neg different, held] at same
        refine current_same (current other now same.symm clean) rfl rfl rfl rfl fun child _ => ?_
        rw [detached, Option.map_map]
        rfl

theorem forget_tree {mid : RenderOwner} (detached : Detached owner mid id) :
    (mid.forget id).tree = without owner.tree id := by
  funext other
  unfold RenderOwner.tree RenderOwner.forget without
  dsimp only
  split
  case isTrue => rfl
  case isFalse =>
    obtain ⟨dirty, same⟩ := detached.objects other
    rw [same, Option.map_map, Option.map_map, Option.map_map]
    congr 1
    funext object
    by_cases up : object.parent = some id
    · simp only [Function.comp_apply, RenderObject.orphan, RenderObject.unchild, unlaid_parent, up,
        if_true]
      rfl
    · simp only [Function.comp_apply, RenderObject.orphan, RenderObject.unchild, unlaid_parent, up,
        if_false]
      rfl

theorem orphan_result (object : RenderObject) : (object.orphan id).result = object.result := by
  unfold RenderObject.orphan
  split <;> rfl

theorem destroy_orderly (orderly : owner.Orderly) (found : (owner.objects id).isSome)
    (different : id ≠ owner.root) : (owner.destroy id).Orderly := by
  obtain ⟨mid, same, detached⟩ := destroy_detaches orderly found
  obtain ⟨sound, ⟨view, rooted, kind, placed⟩, above, -⟩ := orderly
  have tree := forget_tree detached
  rw [same]
  have kept : ∀ {other before}, other ≠ id → owner.objects other = some before → ∃ dirty,
      (mid.forget id).objects other = some (RenderObject.orphan
        { before.unchild id with needsLayout := before.needsLayout || dirty } id) := by
    intro other before apart held
    obtain ⟨dirty, now⟩ := detached.objects other
    refine ⟨dirty, ?_⟩
    change (if other = id then none else (mid.objects other).map _) = _
    rw [if_neg apart, now, held]
    rfl
  refine ⟨?_, ?_, fun parent now named there => ?_, fun other now there clean => ?_⟩
  · rw [tree]
    exact detached.nextId ▸ sound.without
  · obtain ⟨dirty, now⟩ := kept (fun same => different same.symm) rooted
    refine ⟨_, (congrArg _ detached.root).trans now, (orphan_kind _).trans kind, ?_⟩
    have results := @orphan_result id
      { view.unchild id with needsLayout := view.needsLayout || dirty }
    exact (congrArg (·.2.2.1) results).trans placed
  · change ParentOf renderKeys _ mid.root parent at named
    rw [tree, detached.root, without_parent] at named
    obtain ⟨_, apart, named⟩ := named
    obtain ⟨_, held⟩ :=
      Option.isSome_iff_exists.mp (sound.forest.parent_present owner.root parent named)
    obtain ⟨before, held, _⟩ := object_of_tree held
    obtain ⟨dirty, now⟩ := kept apart held
    cases now.symm.trans there
    have results := @orphan_result id
      { before.unchild id with needsLayout := before.needsLayout || dirty }
    refine (congrArg Prod.fst results).trans ?_
    change (before.needsLayout || dirty) = true
    rw [above parent before named held, Bool.true_or]
  · change (if other = id then none else (mid.objects other).map _) = some now at there
    split at there
    case isTrue => cases there
    case isFalse apart =>
      obtain ⟨before, held, rfl⟩ := Option.map_eq_some_iff.mp there
      have results := @orphan_result id before
      simp only [RenderObject.result, Prod.mk.injEq] at results
      refine current_same (detached.current other before held (results.1.symm.trans clean))
        (orphan_kind before) (orphan_children before) results.2.1 results.2.2.2 ?_
      intro child listed
      have present : child ≠ id := by
        rintro rfl
        obtain ⟨dirty, now⟩ := detached.objects other
        rw [held] at now
        obtain ⟨first, _, rfl⟩ := Option.map_eq_some_iff.mp now.symm
        exact absurd rfl (of_decide_eq_true (List.mem_filter.mp listed).2)
      change (if child = id then none else (mid.objects child).map _).map _ = _
      rw [if_neg present, Option.map_map]
      congr 1
      funext below
      exact orphan_result below

end Lifetimes

/-! Setters. -/

section Settings
variable {owner : RenderOwner} {id : RenderId} {object : RenderObject} {setting : RenderSetting}
variable {kind now : RenderKind} {marks : Invalidation}

/-- A setter leaves an object of the same class. -/
theorem apply_alike (applied : applySetting setting kind = .ok (now, marks)) : now.Alike kind := by
  unfold applySetting at applied
  split at applied
  case h_1 =>
    split at applied
    · cases applied
      exact ⟨rfl, fun _ => rfl, fun _ => rfl⟩
    · cases applied
      exact ⟨rfl, fun _ => rfl, fun _ => rfl⟩
  case h_4 | h_5 | h_11 =>
    obtain ⟨_, _, applied⟩ := bind_ok_iff.mp applied
    cases applied
    exact ⟨rfl, fun _ => rfl, fun _ => rfl⟩
  case h_12 | h_13 | h_15 =>
    obtain ⟨_, _, applied⟩ := map_ok_iff.mp applied
    cases applied
    exact ⟨rfl, fun _ => rfl, fun _ => rfl⟩
  all_goals
    cases applied
    exact ⟨rfl, fun _ => rfl, fun _ => rfl⟩

section Lists
variable {list after : FixedExtentList}

theorem set_item_extent_inert {itemExtent : ℚ}
    (set : list.setItemExtent itemExtent = .ok (after, marks)) (inert : marks ≠ .layout) :
    after = list := by
  unfold FixedExtentList.setItemExtent at set
  split at set
  · split at set
    · cases set
      rfl
    · cases set
      exact absurd rfl inert
  · cases set

theorem set_cache_extent_inert {cacheExtent : ℚ}
    (set : list.setCacheExtent cacheExtent = .ok (after, marks)) (inert : marks ≠ .layout) :
    after = list := by
  unfold FixedExtentList.setCacheExtent at set
  split at set
  · split at set
    · cases set
      rfl
    · cases set
      exact absurd rfl inert
  · cases set

theorem set_mounted_inert {first count revision : Nat}
    (set : list.setMountedRange first count revision = .ok (after, marks))
    (inert : marks ≠ .layout) : after = list := by
  unfold FixedExtentList.setMountedRange at set
  split at set
  · cases set
  · cases set
    exact absurd rfl inert

theorem set_lazy_inert {count revision : Nat}
    (set : list.setLazyModel count revision = (after, marks)) (inert : marks ≠ .layout) :
    after = list := by
  unfold FixedExtentList.setLazyModel at set
  split at set
  · cases set
    rfl
  · cases set
    exact absurd rfl inert

theorem clear_lazy_inert (set : list.clearLazyModel = (after, marks)) (inert : marks ≠ .layout) :
    after = list := by
  unfold FixedExtentList.clearLazyModel at set
  split at set
  · cases set
    exact absurd rfl inert
  · cases set
    rfl

end Lists

/-- This is how a box of the class finds its size, and it sets no other field. -/
def RenderKind.SizesBy (kind : RenderKind)
    (size : BoxConstraints → List RenderId → LayoutScript Size) : Prop :=
  (∀ constraints children,
    performLayout kind (.box constraints) children = sized kind (size constraints children)) ∧
  ∀ constraints children, ∃ failure, performLayout kind (.sliver constraints) children =
    .fail failure

/-- A setter that does not mark layout leaves the fields alone that layout depends on. -/
theorem apply_inert (applied : applySetting setting kind = .ok (now, marks))
    (inert : marks ≠ .layout) : now = kind ∨ ∃ size, kind.SizesBy size ∧ now.SizesBy size := by
  unfold applySetting at applied
  split at applied
  case h_1 =>
    split at applied
    · cases applied
      exact .inl rfl
    · cases applied
      exact absurd rfl inert
  case h_2 =>
    cases applied
    exact .inr ⟨_, ⟨fun _ _ => rfl, fun _ _ => ⟨_, rfl⟩⟩, fun _ _ => rfl, fun _ _ => ⟨_, rfl⟩⟩
  case h_4 =>
    obtain ⟨_, _, applied⟩ := bind_ok_iff.mp applied
    cases applied
    split at inert
    · exact absurd rfl inert
    · rename_i same
      rw [not_not] at same
      subst same
      exact .inr ⟨_, ⟨fun _ _ => rfl, fun _ _ => ⟨_, rfl⟩⟩, fun _ _ => rfl, fun _ _ => ⟨_, rfl⟩⟩
  case h_5 | h_11 =>
    obtain ⟨_, _, applied⟩ := bind_ok_iff.mp applied
    cases applied
    split at inert
    · rename_i same
      rw [same]
      exact .inl rfl
    · exact absurd rfl inert
  case h_3 | h_6 | h_7 | h_8 | h_9 | h_10 =>
    cases applied
    exact .inr ⟨performProxy, ⟨fun _ _ => rfl, fun _ _ => ⟨_, rfl⟩⟩, fun _ _ => rfl,
      fun _ _ => ⟨_, rfl⟩⟩
  case h_12 =>
    obtain ⟨_, set, applied⟩ := map_ok_iff.mp applied
    cases applied
    exact .inl (congrArg RenderKind.fixedExtentList (set_item_extent_inert set inert))
  case h_13 =>
    obtain ⟨_, set, applied⟩ := map_ok_iff.mp applied
    cases applied
    exact .inl (congrArg RenderKind.fixedExtentList (set_cache_extent_inert set inert))
  case h_14 =>
    cases applied
    exact .inl (congrArg RenderKind.fixedExtentList (set_lazy_inert rfl inert))
  case h_15 =>
    obtain ⟨_, set, applied⟩ := map_ok_iff.mp applied
    cases applied
    exact .inl (congrArg RenderKind.fixedExtentList (set_mounted_inert set inert))
  case h_16 =>
    cases applied
    exact .inl (congrArg RenderKind.fixedExtentList (clear_lazy_inert rfl inert))
  case h_17 =>
    cases applied
    exact .inl rfl

/-- What a box finds that sets no field but its size does not depend on its other fields. -/
theorem sized_settles {objects : RenderId → Option RenderObject} {script : LayoutScript Size}
    {constraints : BoxConstraints} {measure : Measure}
    (settles : (sized kind script >>= fun laid =>
      LayoutScript.lift (settleMeasure laid (.box constraints))).Settles objects fun laid =>
        laid.measure = measure ∧ laid.kind = kind) :
    (sized now script >>= fun laid =>
      LayoutScript.lift (settleMeasure laid (.box constraints))).Settles objects fun laid =>
        laid.measure = measure ∧ laid.kind = now := by
  unfold sized at settles ⊢
  rw [LayoutScript.settles_bind, LayoutScript.settles_bind] at settles ⊢
  refine settles.mono fun size found => ?_
  obtain ⟨laid, settled, same, _⟩ := LayoutScript.settles_lift.mp found
  obtain ⟨fitted, constrained, settled⟩ := bind_ok_iff.mp settled
  cases settled
  exact LayoutScript.settles_lift.mpr
    ⟨_, bind_ok_iff.mpr ⟨fitted, constrained, rfl⟩, same, rfl⟩

/-- A setter that does not mark layout leaves current what was. -/
theorem inert_current {objects others : RenderId → Option RenderObject}
    (applied : applySetting setting object.kind = .ok (now, marks))
    (inert : marks ≠ .layout) (current : object.Current objects)
    (results : ∀ child ∈ object.children, (others child).map RenderObject.result =
      (objects child).map RenderObject.result) :
    RenderObject.Current others { object with kind := now } := by
  rcases apply_inert applied inert with same | ⟨size, before, after⟩
  · exact current_same current same rfl rfl rfl results
  · obtain ⟨constraints, under, settles⟩ := current
    refine ⟨constraints, under, ?_⟩
    have settles := settles.congr (script_lays object constraints) results
    unfold RenderObject.script at settles ⊢
    cases constraints with
    | box constraints =>
      rw [before.1] at settles
      rw [after.1]
      exact sized_settles settles
    | sliver constraints =>
      obtain ⟨failure, failed⟩ := before.2 constraints object.children
      rw [failed] at settles
      exact settles.elim

theorem apply_view (applied : applySetting setting .view = .ok (now, marks)) : now = .view := by
  cases setting <;> cases applied <;> rfl

/-- An object with other fields of its class, marked as the setter asks. -/
theorem modify_orderly (orderly : owner.Orderly) (found : owner.objects id = some object)
    (applied : applySetting setting object.kind = .ok (now, marks)) :
    ((owner.modify id fun object => { object with kind := now }).mark id marks).Orderly := by
  obtain ⟨sound, ⟨view, rooted, kind, placed⟩, above, current⟩ := orderly
  have changed : ∀ other,
      (owner.modify id fun object => { object with kind := now }).objects other =
        (owner.objects other).map fun object =>
          if other = id then { object with kind := now } else object := by
    intro other
    rw [modify_objects]
    split
    case isTrue same => rw [same]
    case isFalse => rw [Option.map_id']
  have results : ∀ other,
      ((owner.modify id fun object => { object with kind := now }).objects other).map
        RenderObject.result = (owner.objects other).map RenderObject.result := by
    intro other
    rw [changed, Option.map_map]
    congr 1
    funext before
    simp only [Function.comp_apply]
    split <;> rfl
  have sound : RenderTree.Sound (owner.modify id fun object => { object with kind := now }).tree
      (owner.modify id fun object => { object with kind := now }).nextId := by
    refine sound.relinked (fun other => ?_) fun other before after held also => ?_
    · unfold RenderOwner.tree
      rw [changed, Option.map_map, Option.map_map, Option.map_map]
      congr 1
      funext before
      simp only [Function.comp_apply]
      split <;> rfl
    · obtain ⟨first, there, rfl⟩ := object_of_tree held
      obtain ⟨last, here, rfl⟩ := object_of_tree also
      rw [changed, there] at here
      cases here
      split
      case isTrue same =>
        subst same
        cases found.symm.trans there
        have alike := apply_alike applied
        refine ⟨?_, fun child => ?_, fun count => ?_⟩
        · rw [unlaid_kind, unlaid_kind, RenderKind.unlaid_is_box, RenderKind.unlaid_is_box]
          exact alike.box
        · rw [unlaid_kind, unlaid_kind, RenderKind.unlaid_adopts, RenderKind.unlaid_adopts]
          exact alike.protocol child
        · rw [unlaid_kind, unlaid_kind, RenderKind.unlaid_count, RenderKind.unlaid_count]
          exact alike.count count
      case isFalse => exact ⟨rfl, fun _ => rfl, fun _ => rfl⟩
  have root : ∃ view, (owner.modify id fun object => { object with kind := now }).objects
      owner.root = some view ∧ view.kind = .view ∧ view.offset = {} := by
    refine ⟨_, (changed owner.root).trans (congrArg (Option.map _) rooted), ?_, ?_⟩
    · split
      case isTrue same =>
        rw [same, found] at rooted
        cases rooted
        rw [kind] at applied
        exact apply_view applied
      case isFalse => exact kind
    · split <;> exact placed
  have above : ∀ parent after, ParentOf renderKeys
      (owner.modify id fun object => { object with kind := now }).tree owner.root parent →
      (owner.modify id fun object => { object with kind := now }).objects parent = some after →
      after.needsLayout = true := by
    intro parent after named held
    rw [changed] at held
    obtain ⟨before, there, rfl⟩ := Option.map_eq_some_iff.mp held
    have up : ParentOf renderKeys owner.tree owner.root parent := by
      rw [← parent_of_objects] at named ⊢
      obtain ⟨last, last_held, named⟩ := named
      rw [changed] at last_held
      obtain ⟨first, first_held, rfl⟩ := Option.map_eq_some_iff.mp last_held
      refine ⟨first, first_held, ?_⟩
      revert named
      split <;> exact fun named => named
    have dirty := above parent before up there
    split <;> exact dirty
  have elsewhere : ∀ other object, (owner.modify id fun object =>
      { object with kind := now }).objects other = some object → object.needsLayout = false →
      other ≠ id → object.Current
        (owner.modify id fun object => { object with kind := now }).objects := by
    intro other object held clean different
    have same := changed other
    rw [held] at same
    obtain ⟨before, there, kept⟩ := Option.map_eq_some_iff.mp same.symm
    rw [if_neg different] at kept
    subst kept
    exact current_same (current other before there clean) rfl rfl rfl rfl fun child _ =>
      results child
  have everywhere : marks ≠ .layout →
      (owner.modify id fun object => { object with kind := now }).Current := by
    intro inert other object held clean
    by_cases same : other = id
    · subst same
      rw [modify_objects, if_pos rfl, found] at held
      cases held
      exact inert_current applied inert (current other _ found clean) fun child _ => results child
    · exact elsewhere other object held clean same
  cases marks with
  | layout =>
    refine mark_orderly sound ?_ root (fun parent after named held _ =>
      above parent after named held) elsewhere
    have there := changed id
    rw [found] at there
    exact (congrArg Option.isSome (tree_of_object there)).trans rfl
  | nothing => exact ⟨sound, root, above, everywhere nofun⟩
  | paint => exact ⟨sound, root, above, everywhere nofun⟩

/-- The tree and the objects after a setter has run. -/
theorem configure_orderly (id : RenderId) (setting : RenderSetting) :
    Keeps RenderOwner.Orderly (configureRender id setting) := by
  intro owner outcome next orderly ran
  rw [configureRender, Run.read_ends_iff] at ran
  cases found : owner.objects id with
  | none =>
    rw [found] at ran
    cases ran
  | some object =>
    rw [found] at ran
    dsimp only at ran
    cases applied : applySetting setting object.kind with
    | error failure =>
      rw [applied] at ran
      cases ran
      exact orderly
    | ok result =>
      obtain ⟨kind, marks⟩ := result
      rw [applied] at ran
      cases ran
      exact modify_orderly orderly found applied

end Settings

/-! Layout, and whole runs. -/

section Runs
variable {owner : RenderOwner}

theorem view_of_unlaid {kind : RenderKind} (same : kind.unlaid = .view) : kind = .view := by
  cases kind <;> cases same
  rfl

theorem layout_orderly (viewport : BoxConstraints) :
    Keeps RenderOwner.Orderly (layoutRender viewport) := by
  intro owner outcome next orderly ran
  obtain ⟨sound, ⟨view, rooted, kind, placed⟩, above, current⟩ := orderly
  have settled : ∀ mid caught, layoutObject owner.nextId owner.root (.box viewport) owner =
      some (caught, mid) → mid.Orderly := by
    intro mid caught laid
    have out := layout_keeps owner.nextId owner caught mid owner.root view (.box viewport) sound
      current above rooted laid
    obtain ⟨after, there, same, _⟩ := out.offset
    refine ⟨out.kept.sound sound, ?_, ?_, out.current⟩
    · rw [out.kept.root]
      refine ⟨after, there, ?_, same.trans placed⟩
      have held := congrFun out.kept.tree owner.root
      rw [tree_of_object there, tree_of_object rooted] at held
      have kinds := congrArg RenderObject.kind (Option.some.inj held)
      rw [unlaid_kind, unlaid_kind, kind] at kinds
      exact view_of_unlaid kinds
    · rw [out.kept.root]
      exact out.kept.parent_dirty above fun parent named => parent_outside sound named
  rw [layoutRender, Run.read_ends_iff, Run.bind_ends_iff] at ran
  rcases ran with ⟨value, mid, laid, ended⟩ | ⟨failure, laid, rfl⟩
  · obtain ⟨sound, root, above, current⟩ := settled mid _ laid
    cases ended
    exact ⟨sound, root, above, current⟩
  · exact settled next _ laid

theorem initially_orderly : RenderOwner.initially.Orderly := by
  have only : ∀ {id object}, RenderOwner.initially.objects id = some object →
      id = 1 ∧ object = { id := 1, kind := .view } := by
    intro id object found
    change (if id = 1 then some _ else none) = some object at found
    split at found
    case isTrue same => exact ⟨same, (Option.some.inj found).symm⟩
    case isFalse => cases found
  have alone : ∀ {id object}, RenderOwner.initially.tree id = some object →
      id = 1 ∧ object = { id := 1, kind := .view } := by
    intro id object held
    obtain ⟨before, found, rfl⟩ := object_of_tree held
    obtain ⟨same, rfl⟩ := only found
    exact ⟨same, rfl⟩
  have parentless : ∀ {id parent}, ¬ParentOf renderKeys RenderOwner.initially.tree id parent := by
    rintro id parent ⟨object, held, named⟩
    obtain ⟨_, rfl⟩ := alone held
    cases named
  refine ⟨⟨forest_of_rooted (fun id object held => ?_) fun id there => ?_, fun id there => ?_,
    fun {id object} held child => ?_, fun {id object} held => ?_,
    fun {id object child below} held also listed => ?_, fun {id object} held => ?_⟩, ?_, ?_, ?_⟩
  · obtain ⟨rfl, rfl⟩ := alone held
    rfl
  · obtain ⟨object, held⟩ := Option.isSome_iff_exists.mp there
    obtain ⟨_, same⟩ := alone held
    exact .root held (by rw [same]; rfl)
  · obtain ⟨object, held⟩ := Option.isSome_iff_exists.mp there
    obtain ⟨rfl, _⟩ := alone held
    exact ⟨Nat.one_pos, Nat.one_lt_two⟩
  · obtain ⟨_, rfl⟩ := alone held
    exact ⟨fun listed => absurd listed List.not_mem_nil, fun named => absurd named parentless⟩
  · obtain ⟨_, rfl⟩ := alone held
    exact List.nodup_nil
  · obtain ⟨_, rfl⟩ := alone held
    cases listed
  · obtain ⟨_, rfl⟩ := alone held
    rfl
  · exact ⟨{ id := 1, kind := .view }, rfl, rfl, rfl⟩
  · exact fun parent above named => absurd named parentless
  · intro id object found clean
    obtain ⟨_, rfl⟩ := only found
    cases clean

/-- What each kind of code keeps, whether it returns or throws, a step of an owner keeps. -/
theorem step_keeps (invariant : RenderOwner → Prop) {action : RenderAction} {next : RenderOwner}
    (constructing : ∀ arguments, Keeps invariant (constructRender arguments))
    (destroying : ∀ owner id, invariant owner → (owner.objects id).isSome → id ≠ owner.root →
      invariant (owner.destroy id))
    (adopting : ∀ id children, Keeps invariant (setRenderChildren id children))
    (configuring : ∀ id setting, Keeps invariant (configureRender id setting))
    (layingOut : ∀ viewport, Keeps invariant (layoutRender viewport))
    (held : invariant owner) (stepped : renderStep owner action = some next) :
    invariant next := by
  have ended : ∀ {α : Type} {run : Rendering α}, Keeps invariant run →
      (run owner).map Prod.snd = some next → invariant next := by
    intro α run kept mapped
    obtain ⟨⟨outcome, last⟩, ran, rfl⟩ := Option.map_eq_some_iff.mp mapped
    exact kept owner outcome last held ran
  cases action with
  | construct arguments => exact ended (constructing arguments) stepped
  | destroy id =>
    rw [renderStep] at stepped
    split at stepped
    case isTrue there =>
      cases stepped
      exact destroying owner id held there.1 there.2
    case isFalse => cases stepped
  | setChildren id children => exact ended (adopting id children) stepped
  | configure id setting => exact ended (configuring id setting) stepped
  | synchronize root => exact ended (synchronize_keeps adopting root) stepped
  | layout viewport => exact ended (layingOut viewport) stepped

theorem step_orderly {action : RenderAction} {next : RenderOwner} (orderly : owner.Orderly)
    (stepped : renderStep owner action = some next) : next.Orderly :=
  step_keeps RenderOwner.Orderly construct_orderly (fun _ _ => destroy_orderly) set_children_orderly
    configure_orderly layout_orderly orderly stepped

/-- Every owner reached is orderly. -/
theorem orderly_reached (reached : Reachable renderMachine owner) : owner.Orderly := by
  refine reached.invariant RenderOwner.Orderly ?_ ?_
  · rintro _ rfl
    exact initially_orderly
  · exact fun _ _ _ orderly _ stepped => step_orderly orderly stepped

/-- A call of `set_children` that throws changes nothing. -/
theorem set_children_atomic {id : RenderId} {children : List (Option RenderId)}
    {failure : Failure} {next : RenderOwner}
    (thrown : setRenderChildren id children owner = some (.error failure, next)) :
    next = owner := by
  obtain ⟨_, _, ⟨same, _⟩ | ⟨returned, _⟩⟩ := set_children_cases thrown
  · exact same
  · cases returned

/-- Parents and children name each other, once; nothing is above itself; and adopting is
atomic. -/
theorem render_tree_well_formed (reached : Reachable renderMachine owner) :
    (∀ id object, owner.objects id = some object →
      (∀ child ∈ object.children, (owner.objects child).isSome) ∧
      ∀ child below, owner.objects child = some below →
        object.children.count child = if below.parent = some id then 1 else 0) ∧
    Forest renderKeys owner.objects ∧
    ∀ id children failure next,
      setRenderChildren id children owner = some (.error failure, next) → next = owner := by
  obtain ⟨sound, -, -, -⟩ := orderly_reached reached
  have listed : ∀ {id object child}, owner.objects id = some object →
      (child ∈ object.children ↔ ParentOf renderKeys owner.objects child id) := by
    intro id object child found
    rw [parent_of_objects]
    exact sound.linked (tree_of_object found) child
  refine ⟨fun id object found => ⟨fun child among => ?_, fun child below there => ?_⟩, ?_,
    fun _ _ _ _ thrown => set_children_atomic thrown⟩
  · obtain ⟨below, there, _⟩ := (listed found).mp among
    rw [there]
    rfl
  · have distinct := sound.distinct (tree_of_object found)
    rw [unlaid_children] at distinct
    split
    case isTrue named =>
      exact List.count_eq_one_of_mem distinct ((listed found).mpr ⟨below, there, named⟩)
    case isFalse apart =>
      rw [List.count_eq_zero]
      intro among
      obtain ⟨same, again, named⟩ := (listed found).mp among
      cases there.symm.trans again
      exact apart named
  · refine sound.forest.of_same fun id => ?_
    unfold RenderOwner.tree
    rw [Option.map_map]
    rfl

/-- A child is adopted. -/
theorem adoption_well_formed : ∃ owner, Reachable renderMachine owner ∧
    (owner.objects 1).map RenderObject.children = some [2] ∧
    (∀ id object, owner.objects id = some object → ∀ child below,
      owner.objects child = some below →
        object.children.count child = if below.parent = some id then 1 else 0) := by
  obtain ⟨owner, ran, adopted⟩ : ∃ owner, renderMachine.run RenderOwner.initially
      [.construct .vStack, .setChildren 1 [some 2]] = some owner ∧
        (owner.objects 1).map RenderObject.children = some [2] := ⟨_, rfl, rfl⟩
  have reached : Reachable renderMachine owner := Reachable.run (.start rfl) ran
  exact ⟨owner, reached, adopted, fun id object found =>
    ((render_tree_well_formed reached).1 id object found).2⟩

end Runs

end Dui
