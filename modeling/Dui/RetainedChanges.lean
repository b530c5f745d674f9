import Dui.LayoutMarks
import Dui.RetainedLayers

/-! Everything that is done to a render tree between frames keeps what is retained good:
construction and destruction, adoption, settings and layout, whether they return or throw. -/
namespace Dui
open Effect ForestEdit Transition

/-! Marks, and the changes they announce. -/

section Marks
variable {owner before after mid : RenderOwner} {paint : PaintState} {id : RenderId}

theorem require_layout_paint (owner : RenderOwner) (id : RenderId) :
    (owner.requireLayout id).paint = owner.paint := by
  unfold RenderOwner.requireLayout
  split <;> rfl

theorem require_layout_tree (owner : RenderOwner) (id : RenderId) :
    (owner.requireLayout id).tree = owner.tree := by
  funext other
  unfold RenderOwner.tree
  rw [require_layout_objects, Option.map_map]
  congr 1
  funext object
  simp only [Function.comp_apply]
  split <;> rfl

theorem mark_layout_grows (line : List RenderId) : ∀ owner : RenderOwner,
    owner.paint.Grows (owner.markLayoutAlong line).paint ∧ ∀ other,
      owner.paint.Scheduled other → (owner.markLayoutAlong line).paint.Scheduled other := by
  induction line with
  | nil => exact fun owner => ⟨.refl _, fun _ scheduled => scheduled⟩
  | cons first rest ih =>
    intro owner
    obtain ⟨grows, scheduled⟩ := ih ((owner.requireLayout first).markNeedsPaint first)
    obtain ⟨marked, _, spread⟩ := PaintState.mark_along_spec
      (owner.requireLayout first).isRepaintBoundary ((owner.requireLayout first).line first)
      (owner.requireLayout first).paint
    rw [require_layout_paint] at marked spread
    rw [RenderOwner.markLayoutAlong]
    unfold RenderOwner.markNeedsPaint at grows scheduled ⊢
    rw [require_layout_paint] at grows scheduled ⊢
    exact ⟨marked.trans grows, fun other before => scheduled other (spread other before)⟩

/-- Marking that an object needs layout announces a change of it. -/
theorem mark_layout_announces (id : RenderId) (forest : Forest renderKeys owner.tree)
    (issued : ∀ id, (owner.tree id).isSome → id < owner.nextId) (there : (owner.tree id).isSome) :
    owner.paint.Grows (owner.markNeedsLayout id).paint ∧
      (∀ other, owner.paint.Scheduled other → (owner.markNeedsLayout id).paint.Scheduled other) ∧
      owner.Announced (owner.markNeedsLayout id).paint id := by
  obtain ⟨grows, scheduled⟩ := mark_layout_grows (owner.line id) owner
  refine ⟨grows, scheduled, ?_⟩
  obtain ⟨above, line⟩ : ∃ above, owner.line id = id :: above := by
    rw [RenderOwner.line, line_tree]
    exact line_head _ _ _
  have tree := require_layout_tree owner id
  have forest' : Forest renderKeys (owner.requireLayout id).tree := by
    rw [tree]
    exact forest
  obtain ⟨_, _, announced⟩ := mark_paint_announces id forest'
    (by rw [tree, require_layout_next]; exact issued) (by rw [tree]; exact there)
  have later := (mark_layout_grows above ((owner.requireLayout id).markNeedsPaint id)).1
  rw [RenderOwner.markNeedsLayout, line, RenderOwner.markLayoutAlong]
  exact (announced_of_tree tree announced).grow later

/-- A mark leaves what an object looks like. -/
theorem marked_object {other : RenderId} {now : RenderObject}
    (there : (owner.markNeedsLayout id).objects other = some now) :
    ∃ object, owner.objects other = some object ∧ now.kind = object.kind ∧
      now.offset = object.offset ∧ now.ranged.look = object.ranged.look := by
  rw [mark_layout_objects] at there
  split at there
  case isTrue =>
    obtain ⟨object, found, rfl⟩ := Option.map_eq_some_iff.mp there
    exact ⟨object, found, rfl, rfl, ranged_look rfl rfl rfl rfl⟩
  case isFalse =>
    rw [Option.map_id'] at there
    exact ⟨now, there, rfl, rfl, rfl⟩

/-- What is announced in one tree is announced in another where the line of the object is the
same. -/
theorem announced_of_line
    (boundaries : ∀ other, before.isRepaintBoundary other = mid.isRepaintBoundary other)
    (links : ∀ other parent, Below before.tree other id →
      ParentOf renderKeys before.tree other parent → ParentOf renderKeys mid.tree other parent)
    (announced : mid.Announced paint id) : before.Announced paint id := by
  have hosted : ∀ {boundary other}, before.Hosted boundary other → Below before.tree other id →
      mid.Hosted boundary other := by
    intro boundary other hosted
    induction hosted with
    | self => exact fun _ => .self
    | inner named within _ ih =>
      intro above
      exact .inner (links _ _ above named) (boundaries _ ▸ within) (ih (above.tail named))
  have below : ∀ {top}, Below before.tree top id → Below mid.tree top id := by
    intro top below
    induction below with
    | refl => exact below_self id
    | tail above named ih => exact ih.tail (links _ _ above named)
  exact ⟨fun boundary apart recorded => announced.recorded boundary (boundaries boundary ▸ apart)
      (hosted recorded (below_self id)),
    fun boundary apart above => announced.flagged boundary (boundaries boundary ▸ apart)
      (below above)⟩

end Marks

/-! Changes of a compositor. -/

/-- The tree is in order, and what is retained is good. -/
structure Compositor.Good (compositor : Compositor) : Prop where
  orderly : compositor.owner.Orderly
  retains : compositor.Retains

section Changes
variable {compositor : Compositor} {owner next : RenderOwner} {id : RenderId}
  {object : RenderObject}

theorem RenderOwner.Orderly.top (orderly : owner.Orderly) :
    owner.isRepaintBoundary owner.root = true := by
  obtain ⟨view, rooted, kind, _⟩ := orderly.root
  rw [boundary_of rooted, kind]
  rfl

/-- An announced change that leaves a tree in order. -/
theorem Compositor.Good.change (good : compositor.Good) (orderly : next.Orderly)
    (covers : compositor.owner.Covers next) (issued : compositor.owner.nextId ≤ next.nextId)
    (root : next.root = compositor.owner.root)
    (born : ∀ id, (next.objects id).isSome → (compositor.owner.objects id).isSome ∨
      compositor.owner.nextId ≤ id) : Compositor.Good { compositor with owner := next } := by
  refine ⟨orderly, retains_of_covers good.retains good.orderly.sound orderly.sound covers issued
    root good.orderly.top ?_ born⟩
  obtain ⟨view, rooted, _⟩ := orderly.root
  rw [rooted]
  rfl

/-- Changes of the objects where they are, with what is marked of them. -/
theorem covers_of_each (grows : owner.paint.Grows next.paint)
    (scheduled : owner.paint.Scheduled owner.root → next.paint.Scheduled owner.root)
    (each : ∀ other before now, owner.objects other = some before →
      next.objects other = some now →
      now.kind.hasRepaintBoundary = before.kind.hasRepaintBoundary ∧ now.offset = before.offset ∧
        (now.ranged.look = before.ranged.look ∨ owner.Announced next.paint other)) :
    owner.Covers next :=
  ⟨grows, scheduled, fun other before now found there => (each other before now found there).1,
    fun other before now found there => (each other before now found there).2.2,
    fun other _ before now found there _ => .inl (each other before now found there).2.1⟩

/-- Owners whose objects have the same parents have forests alike. -/
theorem forest_of_links {before : RenderOwner} (after : RenderOwner)
    (forest : Forest renderKeys before.tree)
    (links : ∀ other, (after.objects other).map (fun object => (object.id, object.parent)) =
      (before.objects other).map fun object => (object.id, object.parent)) :
    Forest renderKeys after.tree ∧
      (∀ other, (after.tree other).isSome = (before.tree other).isSome) ∧
      ∀ other parent, ParentOf renderKeys before.tree other parent ↔
        ParentOf renderKeys after.tree other parent := by
  have keys : ∀ other, (after.tree other).map renderKeys.link =
      (before.tree other).map renderKeys.link := by
    intro other
    unfold RenderOwner.tree
    rw [Option.map_map, Option.map_map]
    exact links other
  refine ⟨forest.of_same keys, fun other => ?_, fun other parent => (parent_of_same keys).symm⟩
  have same := congrArg Option.isSome (keys other)
  rwa [Option.isSome_map, Option.isSome_map] at same

theorem construct_good {outcome : Except Failure RenderId} {arguments : RenderArguments}
    (good : compositor.Good)
    (ran : constructRender arguments compositor.owner = some (outcome, next)) :
    Compositor.Good { compositor with owner := next } := by
  have orderly := construct_orderly arguments compositor.owner outcome next good.orderly ran
  rw [constructRender, Run.read_ends_iff, Run.change_ends_iff] at ran
  cases made : constructedKind arguments with
  | error failure =>
    rw [made] at ran
    cases ran
    refine good.change orderly (covers_of_each (.refl _) id fun other before now found there => ?_)
      (Nat.le_succ _) rfl fun id there => .inl there
    cases found.symm.trans there
    exact ⟨rfl, rfl, .inl rfl⟩
  | ok kind =>
    rw [made] at ran
    cases ran
    refine good.change orderly ?_ (Nat.le_succ _) rfl fun other there => ?_
    · refine covers_of_each ⟨fun _ flag => flag, fun _ flag => flag⟩ (fun scheduled => ?_)
        fun other before now found there => ?_
      · exact ⟨fun flag => Finset.mem_insert_of_mem (scheduled.needs flag), scheduled.composes⟩
      · have bounds := (good.orderly.sound.issued other (by rw [tree_of_object found]; rfl)).2
        change Function.update compositor.owner.objects compositor.owner.nextId _ other = _ at there
        rw [Function.update_of_ne (Nat.ne_of_lt bounds)] at there
        cases found.symm.trans there
        exact ⟨rfl, rfl, .inl rfl⟩
    · by_cases same : other = compositor.owner.nextId
      · exact .inr (Nat.le_of_eq same.symm)
      · change (Function.update compositor.owner.objects compositor.owner.nextId _
          other).isSome at there
        rw [Function.update_of_ne same] at there
        exact .inl there

/-! Destruction. -/

theorem orphan_look (object : RenderObject) :
    (object.orphan id).ranged.look = object.ranged.look := by
  have results := @orphan_result id object
  simp only [RenderObject.result, Prod.mk.injEq] at results
  exact ranged_look (by rw [orphan_kind]) (orphan_children object) results.2.1 results.2.2.2

/-- Forgetting an object announces nothing more, and loses no flag. -/
theorem forget_covers (covers : owner.Covers next) (different : id ≠ owner.root) :
    owner.Covers (next.forget id) := by
  have before : ∀ {other now}, (next.forget id).objects other = some now →
      ∃ mid, next.objects other = some mid ∧ now = mid.orphan id := by
    intro other now there
    change (if other = id then none else (next.objects other).map _) = _ at there
    split at there
    case isTrue => cases there
    case isFalse =>
      obtain ⟨mid, here, same⟩ := Option.map_eq_some_iff.mp there
      exact ⟨mid, here, same.symm⟩
  refine ⟨⟨covers.grows.paint, covers.grows.flagged⟩, fun scheduled => ?_,
    fun other object now found there => ?_, fun other object now found there => ?_,
    fun other parent object now found there named => ?_⟩
  · obtain ⟨needs, composes⟩ := covers.scheduled scheduled
    have apart : owner.root ≠ id := fun same => different same.symm
    refine ⟨fun flag => Finset.mem_erase_of_ne_of_mem apart (needs flag), fun flag => ?_⟩
    exact (composes flag).imp_right (Finset.mem_erase_of_ne_of_mem apart)
  · obtain ⟨mid, here, rfl⟩ := before there
    rw [orphan_kind]
    exact covers.boundary other object mid found here
  · obtain ⟨mid, here, rfl⟩ := before there
    rw [orphan_look]
    exact (covers.look other object mid found here).imp_right fun announced =>
      ⟨announced.recorded, announced.flagged⟩
  · obtain ⟨mid, here, rfl⟩ := before there
    have results := @orphan_result id mid
    simp only [RenderObject.result, Prod.mk.injEq] at results
    rw [results.2.2.1]
    exact (covers.offset other parent object mid found here named).imp_right fun announced =>
      ⟨announced.recorded, announced.flagged⟩

theorem RenderOwner.Covers.refl (owner : RenderOwner) : owner.Covers owner :=
  covers_of_each (.refl _) id fun other before now found there => by
    cases found.symm.trans there
    exact ⟨rfl, rfl, .inl rfl⟩

/-- Setting fields of an object other than its links and its offset, and marking it. -/
theorem modify_mark_covers {f : RenderObject → RenderObject} {marks : Invalidation}
    (sound : RenderTree.Sound owner.tree owner.nextId) (there : (owner.tree id).isSome)
    (links : ∀ object, ((f object).id, (f object).parent) = (object.id, object.parent))
    (kind : ∀ object, owner.objects id = some object →
      (f object).kind.hasRepaintBoundary = object.kind.hasRepaintBoundary)
    (offset : ∀ object, (f object).offset = object.offset) (marked : marks ≠ .nothing) :
    owner.Covers ((owner.modify id f).mark id marks) := by
  obtain ⟨forest, present, parents⟩ := forest_of_links (owner.modify id f) sound.forest
    fun other => by
      rw [modify_objects]
      split
      case isTrue same =>
        rw [same, Option.map_map]
        exact congrArg (Option.map · _) (funext links)
      case isFalse => rfl
  have issued : ∀ other, ((owner.modify id f).tree other).isSome →
      other < (owner.modify id f).nextId := fun other there =>
    (sound.issued other (present other ▸ there)).2
  have boundaries : ∀ other, owner.isRepaintBoundary other =
      (owner.modify id f).isRepaintBoundary other := by
    intro other
    unfold RenderOwner.isRepaintBoundary
    rw [modify_objects]
    by_cases same : other = id
    · subst same
      rw [if_pos rfl]
      cases found : owner.objects other with
      | none => rfl
      | some object => exact (kind object found).symm
    · rw [if_neg same]
  have held : ((owner.modify id f).tree id).isSome := by rwa [present]
  -- the marked object, and the changes of all
  have marking : ∀ next : RenderOwner, (owner.modify id f).paint.Grows next.paint →
      (∀ other, (owner.modify id f).paint.Scheduled other → next.paint.Scheduled other) →
      (owner.modify id f).Announced next.paint id →
      (∀ other now, next.objects other = some now → ∃ object,
        (owner.modify id f).objects other = some object ∧ now.kind = object.kind ∧
          now.offset = object.offset ∧ now.ranged.look = object.ranged.look) →
      owner.Covers next := by
    intro next grows scheduled announced objects
    have announced := announced_of_line boundaries (fun other above _ => (parents other above).mp)
      announced
    refine covers_of_each grows (scheduled _) fun other before now found there => ?_
    obtain ⟨mid, here, same, place, look⟩ := objects other now there
    rw [modify_objects] at here
    by_cases self : other = id
    · subst self
      rw [if_pos rfl, found] at here
      cases here
      exact ⟨(congrArg _ same).trans (kind before found), place.trans (offset before),
        .inr announced⟩
    · rw [if_neg self, found] at here
      cases here
      exact ⟨congrArg _ same, place, .inl look⟩
  cases marks with
  | nothing => exact absurd rfl marked
  | paint =>
    obtain ⟨grows, scheduled, announced⟩ := mark_paint_announces id forest issued held
    exact marking _ grows scheduled announced fun other now there => ⟨now, there, rfl, rfl, rfl⟩
  | layout =>
    obtain ⟨grows, scheduled, announced⟩ := mark_layout_announces id forest issued held
    exact marking _ grows scheduled announced fun other now there => marked_object there

theorem destroy_good (good : compositor.Good) (found : (compositor.owner.objects id).isSome)
    (different : id ≠ compositor.owner.root) :
    Compositor.Good { compositor with owner := compositor.owner.destroy id } := by
  have orderly := destroy_orderly good.orderly found different
  have sound := good.orderly.sound
  obtain ⟨mid, same, detached⟩ := destroy_detaches good.orderly found
  obtain ⟨object, held⟩ := Option.isSome_iff_exists.mp found
  have covers : compositor.owner.Covers (compositor.owner.destroy id) := by
    unfold RenderOwner.destroy
    rw [held, Option.bind_some]
    cases up : object.parent with
    | none => exact forget_covers (.refl _) different
    | some parent =>
      have named : ParentOf renderKeys compositor.owner.tree id parent :=
        ⟨object.unlaid, tree_of_object held, up⟩
      have covers : compositor.owner.Covers
          ((compositor.owner.modify parent (·.unchild id)).mark parent .layout) :=
        modify_mark_covers sound (sound.forest.parent_present id parent named) (fun _ => rfl)
          (fun _ _ => rfl) (fun _ => rfl) Invalidation.noConfusion
      exact forget_covers covers different
  refine good.change orderly covers ?_ ?_ fun other there => .inl ?_
  · rw [same]
    exact Nat.le_of_eq detached.nextId.symm
  · rw [same]
    exact detached.root
  · rw [same] at there
    change (if other = id then none else (mid.objects other).map _).isSome at there
    split at there
    case isTrue => cases there
    case isFalse =>
      obtain ⟨dirty, objects⟩ := detached.objects other
      rwa [Option.isSome_map, objects, Option.isSome_map] at there

/-! Adoption. -/

/-- Children that pass the checks may be adopted. -/
theorem adoptable_of_checks {children : List RenderId}
    (sound : RenderTree.Sound owner.tree owner.nextId) (found : owner.objects id = some object)
    (counted : object.kind.validateChildCount children.length = .ok ())
    (checked : owner.validateChildren object [] (children.map some) = .ok ()) :
    Adoptable owner.tree id object.unlaid children := by
  have held := tree_of_object found
  obtain ⟨distinct, each⟩ := validate_children_ok (object_keyed sound.forest found) checked
  refine ⟨held, distinct, ?_, fun child listed above => ?_, fun child listed => ?_⟩
  · rw [unlaid_kind, RenderKind.unlaid_count]
    exact counted
  · obtain ⟨_, _, _, _, _, apart⟩ := each child listed
    rw [mem_line sound.forest (fun id there => (sound.issued id there).2)
      (by rw [held]; rfl)] at apart
    exact apart above
  · obtain ⟨_, below, there, free, fits, _⟩ := each child listed
    refine ⟨below.unlaid, tree_of_object there, free, ?_⟩
    rw [unlaid_kind, unlaid_kind, RenderKind.unlaid_protocol]
    exact fits

/-- An object takes its children, and is marked. -/
theorem adopt_covers {children : List RenderId} (sound : RenderTree.Sound owner.tree owner.nextId)
    (adoptable : Adoptable owner.tree id object children) :
    owner.Covers ((owner.adopt id children).markNeedsLayout id) := by
  have adopting : RenderTree.Sound (owner.adopt id children).tree owner.nextId := by
    rw [adopt_tree]
    exact sound.adopted adoptable
  obtain ⟨grows, scheduled, announced⟩ := mark_layout_announces id adopting.forest
    (fun id there => (adopting.issued id there).2) (by
      rw [adopt_tree]
      simp [adopted, adoptable.held])
  have boundaries : ∀ other, owner.isRepaintBoundary other =
      (owner.adopt id children).isRepaintBoundary other := by
    intro other
    rw [boundary_of_tree, boundary_of_tree, adopt_tree]
    unfold adopted
    cases owner.tree other with
    | none => rfl
    | some object => rw [Option.map_some, Option.any_some, Option.any_some, relink_kind]
  -- no object above takes another parent
  have announced := announced_of_line boundaries (fun other parent above named => by
    rw [adopt_tree]
    refine (adopted_parent sound adoptable).mpr (.inr ⟨fun listed => ?_, ?_, named⟩)
    · exact adoptable.apart other listed above
    · rintro rfl
      exact sound.not_above named above) announced
  refine covers_of_each grows (scheduled _) fun other before now found there => ?_
  obtain ⟨mid, here, kind, offset, look⟩ := marked_object there
  change (owner.objects other).map _ = some mid at here
  rw [found] at here
  cases here
  have results := @relink_result id children before
  simp only [RenderObject.result, Prod.mk.injEq] at results
  refine ⟨?_, offset.trans results.2.2.1, ?_⟩
  · rw [kind, relink_kind]
  · by_cases same : other = id
    · subst same
      exact .inr announced
    · refine .inl (look.trans (ranged_look ?_ ?_ results.2.1 results.2.2.2))
      · rw [relink_kind]
      · rw [relink_children, object_keyed sound.forest found, if_neg same]

theorem adopted_there {children : List RenderId} {other : RenderId}
    (there : (((owner.adopt id children).markNeedsLayout id).objects other).isSome) :
    (owner.objects other).isSome := by
  obtain ⟨now, there⟩ := Option.isSome_iff_exists.mp there
  obtain ⟨mid, here, _⟩ := marked_object there
  obtain ⟨before, found, _⟩ := Option.map_eq_some_iff.mp here
  exact Option.isSome_iff_exists.mpr ⟨before, found⟩

/-- What a compositor retains stays good while its owner changes. -/
abbrev Compositor.Keeping {α : Type} (compositor : Compositor) (run : Rendering α) : Prop :=
  Keeps (fun owner => Compositor.Good { compositor with owner }) run

theorem set_children_good (id : RenderId) (children : List (Option RenderId)) :
    compositor.Keeping (setRenderChildren id children) := by
  intro owner outcome next good ran
  have orderly := set_children_orderly id children owner outcome next good.orderly ran
  obtain ⟨object, found, done⟩ := set_children_cases ran
  rcases done with ⟨rfl, _⟩ | ⟨_, present, _, counted, checked, rfl⟩
  · exact good
  · have covers := adopt_covers good.orderly.sound
      (adoptable_of_checks good.orderly.sound found counted checked)
    have changed := good.change orderly covers
      (Nat.le_of_eq (mark_layout_next (owner.adopt id present) id).symm)
      (mark_layout_root (owner.adopt id present) id)
      fun other there => .inl (adopted_there there)
    exact changed

/-! Settings. -/

section Settings
variable {setting : RenderSetting} {kind now : RenderKind} {marks : Invalidation}

/-- A setter does not make a boundary of an object, or of a boundary anything else. -/
theorem apply_boundary (applied : applySetting setting kind = .ok (now, marks)) :
    now.hasRepaintBoundary = kind.hasRepaintBoundary := by
  unfold applySetting at applied
  split at applied
  case h_1 =>
    split at applied
    · cases applied
      rfl
    · cases applied
      rfl
  case h_4 | h_5 | h_11 =>
    obtain ⟨_, _, applied⟩ := bind_ok_iff.mp applied
    cases applied
    rfl
  case h_12 | h_13 | h_15 =>
    obtain ⟨_, _, applied⟩ := map_ok_iff.mp applied
    cases applied
    rfl
  all_goals
    cases applied
    rfl

/-- A setter that marks nothing changes nothing that is painted. -/
theorem apply_look (object : RenderObject)
    (applied : applySetting setting object.kind = .ok (now, marks)) (quiet : marks = .nothing) :
    (RenderObject.ranged { object with kind := now }).look = object.ranged.look := by
  have inert : marks ≠ .layout := by
    rintro rfl
    cases quiet
  have kept : now = object.kind →
      (RenderObject.ranged { object with kind := now }).look = object.ranged.look := by
    rintro rfl
    rfl
  obtain ⟨own, parent, children, kind, needsLayout, constraints, measure, offset⟩ := object
  dsimp only at applied kept
  unfold applySetting at applied
  split at applied
  case h_1 =>
    split at applied
    · cases applied
      exact kept rfl
    · cases applied
      cases quiet
  case h_4 =>
    obtain ⟨_, _, applied⟩ := bind_ok_iff.mp applied
    cases applied
    -- another size marks layout, and another asset paint
    split at quiet
    case isTrue => cases quiet
    case isFalse =>
      split at quiet
      case isTrue => cases quiet
      case isFalse same =>
        rw [not_not] at same
        subst same
        rfl
  case h_5 | h_11 =>
    obtain ⟨_, _, applied⟩ := bind_ok_iff.mp applied
    cases applied
    split at quiet
    case isTrue same => exact kept (by rw [same])
    case isFalse => cases quiet
  case h_6 =>
    cases applied
    split at quiet
    case isTrue same => exact kept (by rw [same])
    case isFalse => cases quiet
  case h_12 =>
    obtain ⟨_, set, applied⟩ := map_ok_iff.mp applied
    cases applied
    exact kept (congrArg RenderKind.fixedExtentList (set_item_extent_inert set inert))
  case h_13 =>
    obtain ⟨_, set, applied⟩ := map_ok_iff.mp applied
    cases applied
    exact kept (congrArg RenderKind.fixedExtentList (set_cache_extent_inert set inert))
  case h_14 =>
    cases applied
    exact kept (congrArg RenderKind.fixedExtentList (set_lazy_inert rfl inert))
  case h_15 =>
    obtain ⟨_, set, applied⟩ := map_ok_iff.mp applied
    cases applied
    exact kept (congrArg RenderKind.fixedExtentList (set_mounted_inert set inert))
  case h_16 =>
    cases applied
    exact kept (congrArg RenderKind.fixedExtentList (clear_lazy_inert rfl inert))
  all_goals
    cases applied
    rfl

/-- Setting the fields of an object, and marking it as the setter asks. -/
theorem configure_covers (sound : RenderTree.Sound owner.tree owner.nextId)
    (found : owner.objects id = some object)
    (applied : applySetting setting object.kind = .ok (now, marks)) :
    owner.Covers ((owner.modify id fun object => { object with kind := now }).mark id marks) := by
  have kind : ∀ before, owner.objects id = some before →
      now.hasRepaintBoundary = before.kind.hasRepaintBoundary := by
    intro before held
    cases found.symm.trans held
    exact apply_boundary applied
  by_cases quiet : marks = .nothing
  · subst quiet
    refine covers_of_each (.refl _) (fun scheduled => scheduled) ?_
    intro other before after held there
    change (owner.modify id _).objects other = some after at there
    rw [modify_objects] at there
    by_cases same : other = id
    · subst same
      rw [if_pos rfl, held] at there
      cases there
      cases found.symm.trans held
      exact ⟨kind object held, rfl, .inl (apply_look object applied rfl)⟩
    · rw [if_neg same, held] at there
      cases there
      exact ⟨rfl, rfl, .inl rfl⟩
  · exact modify_mark_covers sound (by rw [tree_of_object found]; rfl) (fun _ => rfl) kind
      (fun _ => rfl) quiet

theorem mark_fields (owner : RenderOwner) (id : RenderId) (marks : Invalidation) :
    (owner.mark id marks).nextId = owner.nextId ∧ (owner.mark id marks).root = owner.root ∧
      ∀ other, ((owner.mark id marks).objects other).isSome = (owner.objects other).isSome := by
  cases marks with
  | nothing | paint => exact ⟨rfl, rfl, fun _ => rfl⟩
  | layout =>
    refine ⟨mark_layout_next owner id, mark_layout_root owner id, fun other => ?_⟩
    change ((owner.markNeedsLayout id).objects other).isSome = _
    rw [mark_layout_objects, Option.isSome_map]

theorem configure_good (id : RenderId) (setting : RenderSetting) :
    compositor.Keeping (configureRender id setting) := by
  intro owner outcome next good ran
  have orderly := configure_orderly id setting owner outcome next good.orderly ran
  rw [configureRender, Run.read_ends_iff] at ran
  cases found : owner.objects id with
  | none =>
    rw [found] at ran
    cases ran
  | some object =>
    rw [found] at ran
    dsimp only at ran
    cases applied : applySetting setting object.kind with
    | error failure =>
      rw [applied] at ran
      cases ran
      exact good
    | ok result =>
      obtain ⟨kind, marks⟩ := result
      rw [applied] at ran
      cases ran
      obtain ⟨next, root, present⟩ :=
        mark_fields (owner.modify id fun object => { object with kind }) id marks
      have changed := good.change orderly (configure_covers good.orderly.sound found applied)
        (Nat.le_of_eq next.symm) root fun other there => .inl (by
          rw [present, modify_objects] at there
          split at there
          case isTrue same => rwa [Option.isSome_map, ← same] at there
          case isFalse => exact there)
      exact changed

end Settings

/-! Layout, and steps. -/

theorem layout_good (viewport : BoxConstraints) : compositor.Keeping (layoutRender viewport) := by
  intro owner outcome next good ran
  have orderly := layout_orderly viewport owner outcome next good.orderly ran
  obtain ⟨sound, ⟨view, rooted, _⟩, above, current⟩ := good.orderly
  -- the tree stays, and all changes are announced
  have announced : ∀ mid caught, layoutObject owner.nextId owner.root (.box viewport) owner =
      some (caught, mid) → mid.Orderly → Compositor.Good { compositor with owner := mid } := by
    intro mid caught laid after
    have covers := layout_announces owner.nextId owner caught mid owner.root view (.box viewport)
      sound current above rooted laid
    have changed := good.change after covers.covers (Nat.le_of_eq covers.nextId.symm) covers.root
      fun other there => .inl (by
        obtain ⟨now, there⟩ := Option.isSome_iff_exists.mp there
        have held := tree_of_object there
        rw [covers.tree] at held
        obtain ⟨object, found, _⟩ := object_of_tree held
        exact Option.isSome_iff_exists.mpr ⟨object, found⟩)
    exact changed
  rw [layoutRender, Run.read_ends_iff, Run.bind_ends_iff] at ran
  rcases ran with ⟨value, mid, laid, ended⟩ | ⟨failure, laid, rfl⟩
  · cases ended
    obtain ⟨_, retains⟩ := announced mid _ laid
      ⟨orderly.sound, orderly.root, orderly.above, orderly.current⟩
    obtain ⟨⟨fresh, kept, recorded, composed⟩, scheduled, last⟩ := retains
    exact ⟨orderly, ⟨fresh, kept, recorded, composed⟩, scheduled, last⟩
  · exact announced next _ laid orderly

/-- Whatever is done to a render owner between frames keeps what is retained good. -/
theorem change_good {action : RenderAction} (good : compositor.Good)
    (stepped : renderStep compositor.owner action = some next) :
    Compositor.Good { compositor with owner := next } :=
  step_keeps (fun owner => Compositor.Good { compositor with owner }) (fun _ _ _ _ => construct_good)
    (fun _ _ => destroy_good) set_children_good configure_good layout_good good stepped

end Changes

end Dui
