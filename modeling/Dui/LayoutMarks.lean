import Dui.PaintMarks

/-! Layout announces what it changes: an object that measures something else or is laid out
under other constraints is marked when its layout ends, and one that is moved is marked, or its
parent is, when it gets its offset. -/
namespace Dui
open Effect Effect.Run ForestEdit LayoutScript

namespace LayoutScript
variable {α β : Type} {script : LayoutScript α} {rest : α → LayoutScript β}
  {placement : Placement} {allowed : Placement → Prop}

/-- The script places children in these ways only. -/
def Places (allowed : Placement → Prop) : LayoutScript α → Prop
  | .done _ => True
  | .fail _ => True
  | .put _ next => next.Places allowed
  | .lay placement _ _ _ next => allowed placement ∧ ∀ measure, (next measure).Places allowed

theorem places_done (value : α) : (pure value : LayoutScript α).Places allowed := trivial

theorem places_bind : ∀ {script : LayoutScript α}, script.Places allowed →
    (∀ value, (rest value).Places allowed) → (script >>= rest).Places allowed := by
  intro script
  induction script with
  | done value => exact fun _ later => later value
  | fail failure => exact fun _ _ => trivial
  | put kind next ih => exact fun places later => ih places later
  | lay placement child constraints offset next ih =>
    exact fun places later => ⟨places.1, fun measure => ih measure (places.2 measure) later⟩

theorem Places.mono {wider : Placement → Prop}
    (within : ∀ placement, allowed placement → wider placement) :
    ∀ {script : LayoutScript α}, script.Places allowed → script.Places wider := by
  intro script
  induction script with
  | done value => exact id
  | fail failure => exact id
  | put kind next ih => exact fun places => ih places
  | lay placement child constraints offset next ih =>
    exact fun places => ⟨within _ places.1, fun measure => ih measure (places.2 measure)⟩

theorem places_lift (outcome : Except Failure α) : (lift outcome).Places allowed := by
  cases outcome <;> trivial

theorem places_fold {body : α → RenderId → LayoutScript α}
    (each : ∀ value child, (body value child).Places allowed) (children : List RenderId) :
    ∀ value, (children.foldlM body value).Places allowed := by
  induction children with
  | nil => exact fun _ => trivial
  | cons child rest ih =>
    intro value
    rw [List.foldlM_cons]
    exact places_bind (each value child) ih

end LayoutScript

section Classes
variable {allowed : Placement → Prop} {constraints : BoxConstraints} {children : List RenderId}

/-- Going through children as a stack does. -/
theorem stacks_place {α : Type} {body : Size → RenderId → LayoutScript Size}
    {rest : Size → LayoutScript α} (each : ∀ extent child, (body extent child).Places allowed)
    (after : ∀ extent, (rest extent).Places allowed) :
    (children.foldlM body {} >>= rest).Places allowed :=
  places_bind (places_fold each children _) after

section Boxes
variable (ways : allowed .boxChild)
include ways

theorem layout_child_places {child : RenderId} {offset : Offset} :
    (layoutChild child constraints offset).Places allowed :=
  ⟨ways, fun _ => places_done _⟩

theorem v_stack_places : (performVStack constraints children).Places allowed := by
  refine places_bind (places_lift _) fun _ => stacks_place (fun _ _ => ?_) fun _ => places_lift _
  exact places_bind (layout_child_places ways) fun _ => places_done _

theorem h_stack_places : (performHStack constraints children).Places allowed := by
  refine places_bind (places_lift _) fun _ => stacks_place (fun _ _ => ?_) fun _ => places_lift _
  exact places_bind (layout_child_places ways) fun _ => places_done _

theorem stack_places : (performStack constraints children).Places allowed := by
  refine stacks_place (fun _ _ => ?_) fun _ => places_lift _
  exact places_bind (layout_child_places ways) fun _ => places_done _

theorem padding_places (insets : Insets) :
    (performPadding insets constraints children).Places allowed := by
  cases children with
  | nil =>
    rw [performPadding]
    exact places_lift _
  | cons child rest =>
    rw [performPadding]
    refine places_bind (places_lift _) fun _ => ?_
    exact places_bind (layout_child_places ways) fun _ => places_lift _

theorem proxy_places : (performProxy constraints children).Places allowed := by
  cases children with
  | nil =>
    rw [performProxy]
    exact places_lift _
  | cons child rest =>
    rw [performProxy]
    exact places_bind (layout_child_places ways) fun _ => places_lift _

theorem view_places : (performView constraints children).Places allowed := by
  unfold performView
  split
  · trivial
  · refine places_bind (places_lift _) fun _ => ?_
    exact stacks_place (fun _ _ => layout_child_places ways) fun _ => places_done _

end Boxes

theorem viewport_places (ways : allowed .viewportSliver) (scrollOffset : ℚ) :
    (performViewport scrollOffset constraints children).Places allowed := by
  unfold performViewport
  split
  · trivial
  · refine places_bind (places_fold (fun _ _ => ?_) _ _) fun _ => places_done _
    refine places_bind (places_lift _) fun _ => ?_
    exact places_bind ⟨ways, fun _ => places_done _⟩ fun _ => places_done _

section Slivers
variable {constraints : SliverConstraints} (ways : allowed .sliverBoxChild)
include ways

theorem layout_box_child_places {child : RenderId} {constraints : BoxConstraints}
    {offset : Offset} : (layoutBoxChild child constraints offset).Places allowed :=
  ⟨ways, fun _ => places_done _⟩

theorem adapter_places : (performSliverToBoxAdapter constraints children).Places allowed := by
  cases children with
  | nil => trivial
  | cons child rest =>
    rw [performSliverToBoxAdapter]
    exact places_bind (layout_box_child_places ways) fun _ => places_lift _

theorem list_places (list : FixedExtentList) :
    (performFixedExtentList list constraints children).Places allowed := by
  unfold performFixedExtentList
  dsimp only [Places]
  split
  · exact places_bind (places_lift _) fun _ => places_done _
  · refine places_bind (places_lift _) fun _ => places_bind (places_fold (fun _ _ => ?_) _ _)
      fun _ => places_bind (places_lift _) fun _ => places_done _
    exact places_bind (layout_box_child_places ways) fun _ => places_done _

end Slivers

/-- Only viewports place slivers. -/
theorem script_places (object : RenderObject) (constraints : LayoutConstraints) :
    (object.script constraints).Places fun placement => placement = .viewportSliver →
      ∃ scrollOffset extent, object.kind = .viewport scrollOffset extent := by
  obtain ⟨id, parent, children, kind, needsLayout, given, measure, offset⟩ := object
  refine places_bind ?_ fun _ => places_lift _
  dsimp only
  have sized : ∀ {kind : RenderKind} {script : LayoutScript Size} {allowed : Placement → Prop},
      script.Places allowed → (sized kind script).Places allowed :=
    fun places => places_bind places fun _ => places_done _
  have plain : ∀ {placement : Placement} {viewport : Prop}, placement ≠ .viewportSliver →
      placement = .viewportSliver → viewport := fun other same => absurd same other
  cases constraints with
  | box constraints =>
    have ways := @plain .boxChild (∃ scrollOffset extent, kind = .viewport scrollOffset extent)
      Placement.noConfusion
    cases kind with
    | text | image => exact sized (places_lift _)
    | vStack => exact sized (v_stack_places ways)
    | hStack => exact sized (h_stack_places ways)
    | stack => exact sized (stack_places ways)
    | padding insets => exact sized (padding_places ways insets)
    | coloredBox | actionBox | semanticsBox | repaintBoundary => exact sized (proxy_places ways)
    | view => exact sized (view_places ways)
    | viewport scrollOffset extent =>
      exact places_bind (viewport_places (fun _ => ⟨scrollOffset, extent, rfl⟩) scrollOffset)
        fun _ => places_done _
    | sliverToBoxAdapter | fixedExtentList => trivial
  | sliver constraints =>
    have ways := @plain .sliverBoxChild
      (∃ scrollOffset extent, kind = .viewport scrollOffset extent) Placement.noConfusion
    cases kind with
    | sliverToBoxAdapter => exact places_bind (adapter_places ways) fun _ => places_done _
    | fixedExtentList list => exact places_bind (list_places ways list) fun _ => places_done _
    | _ => trivial

end Classes

/-! What a layout announces. -/

section Trees
variable {before after last : RenderOwner} {paint : PaintState} {id parent boundary : RenderId}

theorem boundary_of_tree (owner : RenderOwner) (id : RenderId) :
    owner.isRepaintBoundary id = (owner.tree id).any (·.kind.hasRepaintBoundary) := by
  unfold RenderOwner.isRepaintBoundary RenderOwner.tree
  cases owner.objects id with
  | none => rfl
  | some object => exact (RenderKind.unlaid_boundary object.kind).symm

/-- What is announced depends on the tree alone. -/
theorem announced_of_tree (tree : after.tree = before.tree) (announced : after.Announced paint id) :
    before.Announced paint id := by
  have boundaries : ∀ id, before.isRepaintBoundary id = after.isRepaintBoundary id := by
    intro id
    rw [boundary_of_tree, boundary_of_tree, tree]
  have hosted : ∀ {boundary id}, before.Hosted boundary id → after.Hosted boundary id := by
    intro boundary id hosted
    induction hosted with
    | self => exact .self
    | inner named within _ ih => exact .inner (tree ▸ named) (boundaries _ ▸ within) ih
  constructor
  · intro boundary apart recorded
    exact announced.recorded boundary (boundaries boundary ▸ apart) (hosted recorded)
  · intro boundary apart below
    exact announced.flagged boundary (boundaries boundary ▸ apart) (tree ▸ below)

/-- A change of an object that is no boundary is one of what its parent paints. -/
theorem announced_parent (announced : before.Announced paint id)
    (named : ParentOf renderKeys before.tree id parent)
    (within : before.isRepaintBoundary id = false) : before.Announced paint parent :=
  ⟨fun boundary apart hosted => announced.recorded boundary apart (.inner named within hosted),
    fun boundary apart below => announced.flagged boundary apart (.head named below)⟩

/-- The tree is the same, and all changes are announced but those of one object's look. -/
structure RenderOwner.CoversBut (before after : RenderOwner) (open_ : RenderId → Prop) : Prop where
  tree : after.tree = before.tree
  nextId : after.nextId = before.nextId
  root : after.root = before.root
  grows : before.paint.Grows after.paint
  scheduled : ∀ id, before.paint.Scheduled id → after.paint.Scheduled id
  look : ∀ id object now, before.objects id = some object → after.objects id = some now →
    open_ id ∨ now.ranged.look = object.ranged.look ∨ before.Announced after.paint id
  offset : ∀ id parent object now, before.objects id = some object →
    after.objects id = some now → ParentOf renderKeys before.tree id parent →
    now.offset = object.offset ∨ before.Announced after.paint parent

namespace RenderOwner.CoversBut
variable {open_ wider : RenderId → Prop}

theorem same_paint (tree : after.tree = before.tree) (nextId : after.nextId = before.nextId)
    (root : after.root = before.root) (paint : after.paint = before.paint)
    (look : ∀ id object now, before.objects id = some object → after.objects id = some now →
      open_ id ∨ now.ranged.look = object.ranged.look)
    (offset : ∀ id object now, before.objects id = some object → after.objects id = some now →
      now.offset = object.offset) : before.CoversBut after open_ := by
  refine ⟨tree, nextId, root, ?_, fun id scheduled => ?_, fun id object now found there => ?_,
    fun id parent object now found there _ => .inl (offset id object now found there)⟩
  · rw [paint]
    exact .refl _
  · rw [paint]
    exact scheduled
  · exact (look id object now found there).imp_right .inl

theorem refl (owner : RenderOwner) (open_ : RenderId → Prop) : owner.CoversBut owner open_ := by
  refine same_paint rfl rfl rfl rfl (fun id object now found there => .inr ?_)
    fun id object now found there => ?_
  · cases found.symm.trans there
    rfl
  · cases found.symm.trans there
    rfl

theorem trans (first : before.CoversBut after open_) (second : after.CoversBut last open_) :
    before.CoversBut last open_ := by
  have between : ∀ {id object}, before.objects id = some object →
      ∃ mid, after.objects id = some mid := by
    intro id object found
    have held := tree_of_object found
    rw [← first.tree] at held
    obtain ⟨mid, there, _⟩ := object_of_tree held
    exact ⟨mid, there⟩
  refine ⟨second.tree.trans first.tree, second.nextId.trans first.nextId,
    second.root.trans first.root, first.grows.trans second.grows,
    fun id before => second.scheduled id (first.scheduled id before),
    fun id object now found there => ?_, fun id parent object now found there named => ?_⟩
  · obtain ⟨mid, here⟩ := between found
    rcases first.look id object mid found here with free | same | announced
    · exact .inl free
    · rcases second.look id mid now here there with free | also | announced
      · exact .inl free
      · exact .inr (.inl (also.trans same))
      · exact .inr (.inr (announced_of_tree first.tree announced))
    · exact .inr (.inr (announced.grow second.grows))
  · obtain ⟨mid, here⟩ := between found
    rcases first.offset id parent object mid found here named with same | announced
    · rw [← first.tree] at named
      rcases second.offset id parent mid now here there named with also | announced
      · exact .inl (also.trans same)
      · exact .inr (announced_of_tree first.tree announced)
    · exact .inr (announced.grow second.grows)

theorem widen (covers : before.CoversBut after open_) (within : ∀ id, open_ id → wider id) :
    before.CoversBut after wider :=
  { covers with
    look := fun id object now found there =>
      (covers.look id object now found there).imp_left (within id) }

/-- Changes are announced where none is left open. -/
theorem covers (covers : before.CoversBut after fun _ => False) : before.Covers after := by
  refine ⟨covers.grows, covers.scheduled _, fun id object now found there => ?_,
    fun id object now found there => (covers.look id object now found there).resolve_left not_false,
    covers.offset⟩
  have same := boundary_of_tree after id
  rw [covers.tree, ← boundary_of_tree] at same
  unfold RenderOwner.isRepaintBoundary at same
  rw [found, there, Option.any_some, Option.any_some] at same
  exact same

end RenderOwner.CoversBut

end Trees

section Running
variable {start middle owner next : RenderOwner} {id self child : RenderId}
  {object : RenderObject} {lay : RenderId → LayoutConstraints → Rendering Unit}
  {open_ : RenderId → Prop}

/-- Marking an object announces a change of it. -/
theorem mark_paint_announces (id : RenderId) (forest : Forest renderKeys owner.tree)
    (issued : ∀ id, (owner.tree id).isSome → id < owner.nextId) (there : (owner.tree id).isSome) :
    owner.paint.Grows (owner.markNeedsPaint id).paint ∧
      (∀ other, owner.paint.Scheduled other → (owner.markNeedsPaint id).paint.Scheduled other) ∧
      owner.Announced (owner.markNeedsPaint id).paint id := by
  obtain ⟨grows, marked, scheduled⟩ :=
    PaintState.mark_along_spec owner.isRepaintBoundary (owner.line id) owner.paint
  exact ⟨grows, scheduled, announced_of_marked forest issued there marked⟩

/-- Setting fields of an object that layout sets, the look of which is left open. -/
theorem modify_covers (f : RenderObject → RenderObject)
    (plain : ∀ object, owner.objects id = some object → (f object).unlaid = object.unlaid)
    (offset : ∀ object, owner.objects id = some object → (f object).offset = object.offset) :
    owner.CoversBut (owner.modify id f) (· = id) := by
  refine .same_paint (modify_kept f plain).tree rfl rfl rfl (fun other object now found there => ?_)
    fun other object now found there => ?_
  · by_cases same : other = id
    · exact .inl same
    · rw [modify_objects, if_neg same, found] at there
      cases there
      exact .inr rfl
  · rw [modify_objects] at there
    split at there
    case isTrue same =>
      subst same
      rw [found] at there
      cases there
      exact offset object found
    case isFalse =>
      cases found.symm.trans there
      rfl

/-- A child that is given its offset. -/
theorem place_covers {placement : Placement} {offset : Offset}
    (sound : RenderTree.Sound start.tree start.nextId)
    (named : ParentOf renderKeys start.tree child self)
    (slivers : placement = .viewportSliver → start.isRepaintBoundary child = false) :
    start.CoversBut (start.place placement self child offset) open_ := by
  unfold RenderOwner.place
  split
  case isTrue => exact .refl _ _
  case isFalse =>
    have kept : start.Kept (start.modify child fun object => { object with offset }) (· = child) :=
      modify_kept _ fun _ _ => rfl
    have boundary : (start.modify child fun object =>
        { object with offset }).isRepaintBoundary child = start.isRepaintBoundary child := by
      rw [boundary_of_tree, kept.tree, ← boundary_of_tree]
    -- whichever object is marked, the parent's change is announced
    have covers : ∀ marked : RenderId,
        (start.tree marked).isSome →
        (∀ paint, start.Announced paint marked → start.Announced paint self) →
        start.CoversBut ((start.modify child fun object => { object with offset }).markNeedsPaint
          marked) open_ := by
      intro marked there announces
      obtain ⟨grows, scheduled, announced⟩ := mark_paint_announces marked (kept.sound sound).forest
        (fun id there => ((kept.sound sound).issued id there).2)
        (by rw [kept.tree]; exact there)
      have announced := announces _ (announced_of_tree kept.tree announced)
      refine ⟨kept.tree, rfl, rfl, grows, scheduled, fun other object now found there => ?_,
        fun other parent object now found there up => ?_⟩
      · rw [mark_paint_objects, modify_objects] at there
        split at there
        case isTrue same =>
          subst same
          rw [found] at there
          cases there
          exact .inr (.inl (ranged_look rfl rfl rfl rfl))
        case isFalse =>
          cases found.symm.trans there
          exact .inr (.inl rfl)
      · by_cases same : other = child
        · subst same
          rw [named.unique up] at announced
          exact .inr announced
        · rw [mark_paint_objects, modify_objects, if_neg same, found] at there
          cases there
          exact .inl rfl
    dsimp only
    split
    case isTrue =>
      exact covers self (sound.forest.parent_present child self named) fun _ announced => announced
    case isFalse apart =>
      refine covers child ?_ fun paint announced => announced_parent announced named ?_
      · obtain ⟨object, held, _⟩ := named
        rw [held]
        rfl
      · rw [boundary] at apart
        by_cases sliver : placement = .viewportSliver
        · exact slivers sliver
        · exact Bool.eq_false_iff.mpr fun boundary => apart ⟨sliver, boundary⟩

/-- This way of laying out announces what it changes. -/
def Announces (lay : RenderId → LayoutConstraints → Rendering Unit) : Prop :=
  ∀ start outcome next id object constraints, RenderTree.Sound start.tree start.nextId →
    start.Current → start.ParentDirty id → start.objects id = some object →
    lay id constraints start = some (outcome, next) → start.CoversBut next fun _ => False

theorem lay_placed_covers (announces : Announces lay) {placement : Placement}
    {offset : Offset} {constraints : LayoutConstraints} {outcome : Except Failure Unit}
    (sound : RenderTree.Sound start.tree start.nextId) (current : start.Current)
    (dirty : start.ParentDirty child) (found : start.objects child = some object)
    (named : ParentOf renderKeys start.tree child self)
    (slivers : placement = .viewportSliver → start.isRepaintBoundary child = false)
    (ran : layPlaced lay placement self child constraints offset start = some (outcome, next)) :
    start.CoversBut next fun _ => False := by
  unfold layPlaced at ran
  split at ran
  · rw [change_ends_iff] at ran
    have placed : start.Kept (start.place placement self child offset) (Below start.tree child) :=
      (place_kept placement offset).widen fun id same => by
        rw [same]
        exact below_self child
    have moved : (start.place placement self child offset).objects child =
        some { object with offset } := by
      rw [(place_eq start self child placement offset).1, modify_objects, if_pos rfl, found]
      rfl
    refine (place_covers sound named slivers).trans (announces _ outcome next child _ constraints
      (placed.sound sound) (place_current current sound dirty placement offset)
      (placed.parent_dirty dirty fun parent up => parent_outside sound up) moved ran)
  · rw [bind_ends_iff] at ran
    rcases ran with ⟨value, middle, laid, ended⟩ | ⟨failure, thrown, rfl⟩
    · have covers :=
        announces start _ middle child object constraints sound current dirty found laid
      cases ended
      refine covers.trans (place_covers ?_ ?_ ?_)
      · rw [covers.tree, covers.nextId]
        exact sound
      · rw [covers.tree]
        exact named
      · intro sliver
        rw [boundary_of_tree, covers.tree, ← boundary_of_tree]
        exact slivers sliver
    · exact announces start _ next child object constraints sound current dirty found thrown

/-- A script announces what it changes of the children; its object is left open. -/
theorem perform_covers (lays : LaysOut lay) (announces : Announces lay) {α : Type}
    {post : α → List RenderId → Prop} :
    ∀ {script : LayoutScript α} {left : List RenderId} {start next : RenderOwner}
      {object : RenderObject} {outcome : Except Failure α},
      RenderTree.Sound start.tree start.nextId → start.Current → start.ParentDirty self →
      start.objects self = some object → object.needsLayout = true →
      script.Lays object.kind.unlaid left post →
      (script.Places fun placement => placement = .viewportSliver → ∀ child,
        ParentOf renderKeys start.tree child self → start.isRepaintBoundary child = false) →
      (∀ child ∈ left, ParentOf renderKeys start.tree child self) → left.Nodup →
      script.perform lay self start = some (outcome, next) → start.CoversBut next (· = self) := by
  intro script
  induction script with
  | done value =>
    intro left start next object outcome sound current dirty found needs lies places among
      distinct ran
    cases ran
    exact .refl _ _
  | fail failure =>
    intro left start next object outcome sound current dirty found needs lies places among
      distinct ran
    cases ran
    exact .refl _ _
  | put kind script ih =>
    intro left start next object outcome sound current dirty found needs lies places among
      distinct ran
    rw [LayoutScript.perform, change_ends_iff] at ran
    obtain ⟨kept, current, dirty, moved⟩ := put_keeps sound current dirty found needs lies.1
    have covers : start.CoversBut (start.modify self fun object => { object with kind })
        (· = self) := by
      refine modify_covers _ (fun before held => ?_) fun _ _ => rfl
      cases found.symm.trans held
      simp only [RenderObject.unlaid, lies.1]
    refine covers.trans (ih (kept.sound sound) current dirty moved needs
      (by rw [lies.1]; exact lies.2) ?_ (by rw [kept.tree]; exact among) distinct ran)
    have places : script.Places _ := places
    simpa only [boundary_of_tree, kept.tree] using places
  | lay placement child constraints offset rest ih =>
    intro left start next object outcome sound current dirty found needs lies places among
      distinct ran
    have named := among child lies.1
    obtain ⟨below, there, _⟩ := parent_of_objects.mpr named
    have open_ : start.ParentDirty child := by
      intro parent above other held
      cases named.unique other
      cases found.symm.trans held
      exact needs
    have outside : ¬Below start.tree child self := parent_outside sound named
    have slivers := fun sliver => places.1 sliver child named
    rw [LayoutScript.perform, bind_ends_iff] at ran
    rcases ran with ⟨value, middle, laid, ran⟩ | ⟨failure, thrown, rfl⟩
    · have covers := lay_placed_covers announces sound current open_ there named slivers laid
      obtain ⟨current, kept, after⟩ := lay_placed_keeps lays sound current open_ there laid
      obtain ⟨after, here, _⟩ := after rfl
      have same : middle.objects self = some object := (kept.others self outside).trans found
      have ran : (rest after.measure).perform lay self middle = some (outcome, next) := by
        rw [bind_ends_iff] at ran
        unfold measureOf at ran
        simp only [read_ends_iff, here] at ran
        rcases ran with ⟨_, _, same, ran⟩ | ⟨_, same, _⟩
        · cases same
          exact ran
        · cases same
      have upward : ∀ parent, ParentOf renderKeys start.tree self parent →
          ¬Below start.tree child parent := fun parent up below => outside (.head up below)
      refine (covers.widen fun _ => False.elim).trans (ih after.measure (kept.sound sound) current
        (kept.parent_dirty dirty upward) same needs (lies.2 _) ?_ (fun other listed => ?_)
        (distinct.erase child) ran)
      · simpa only [boundary_of_tree, kept.tree] using places.2 after.measure
      · rw [kept.tree]
        exact among other (List.mem_of_mem_erase listed)
    · exact (lay_placed_covers announces sound current open_ there named slivers
        thrown).widen fun _ => False.elim

/-- The children of a viewport are slivers, and no sliver is a boundary. -/
theorem sliver_within {scrollOffset extent : ℚ} (sound : RenderTree.Sound owner.tree owner.nextId)
    (found : owner.objects id = some object) (kind : object.kind = .viewport scrollOffset extent)
    (named : ParentOf renderKeys owner.tree child id) : owner.isRepaintBoundary child = false := by
  obtain ⟨below, there, _⟩ := parent_of_objects.mpr named
  have listed : child ∈ object.children :=
    (sound.linked (tree_of_object found) child).mpr named
  have fits := sound.accepted (tree_of_object found) (tree_of_object there) listed
  rw [unlaid_kind, unlaid_kind, RenderKind.unlaid_protocol, kind] at fits
  unfold RenderOwner.isRepaintBoundary
  rw [there, Option.any_some]
  cases other : below.kind with
  | repaintBoundary | view =>
    rw [other] at fits
    cases fits
  | _ => rfl

/-- Where the look of one object was left open, it is the same after all, or is announced. -/
theorem RenderOwner.CoversBut.close {now : RenderObject}
    (covers : start.CoversBut next (· = id)) (found : start.objects id = some object)
    (there : next.objects id = some now)
    (look : now.ranged.look = object.ranged.look ∨ start.Announced next.paint id) :
    start.CoversBut next fun _ => False := by
  refine { covers with look := fun other before after held here => ?_ }
  by_cases same : other = id
  · subst same
    cases found.symm.trans held
    cases there.symm.trans here
    exact .inr look
  · rcases covers.look other before after held here with is | rest
    · exact absurd is same
    · exact .inr rest

/-- Every layout announces what it changes, by induction on the depth it may reach. -/
theorem layout_announces (fuel : Nat) : Announces (layoutObject fuel) := by
  induction fuel with
  | zero =>
    intro start outcome next id object constraints sound current dirty found ran
    cases ran
  | succ fuel ih =>
    intro start outcome next id object constraints sound current dirty found ran
    have apart : ∀ parent, ParentOf renderKeys start.tree id parent → ¬parent = id :=
      fun parent named => (sound.parent_ne named).symm
    rw [layoutObject, read_ends_iff, found] at ran
    dsimp only at ran
    split at ran
    case isTrue clean =>
      cases ran
      exact .refl _ _
    case isFalse =>
      rw [change_ends_iff, attempt_ends_iff] at ran
      obtain ⟨caught, middle, ran, ended⟩ := ran
      have opened : ∀ before, start.objects id = some before →
          RenderObject.unlaid { before with
            constraints := some constraints, needsLayout := true } = before.unlaid :=
        fun _ _ => rfl
      have kept := modify_kept _ opened
      have covers := modify_covers _ opened fun _ _ => rfl
      have open_ := modify_current current sound opened dirty (by
        intro _ _ clean
        cases clean)
      have unclean := kept.parent_dirty dirty apart
      have held : (start.modify id fun before => { before with
          constraints := some constraints, needsLayout := true }).objects id =
            some { object with constraints := some constraints, needsLayout := true } := by
        rw [modify_objects, if_pos rfl, found]
        rfl
      generalize (start.modify id fun before => { before with
        constraints := some constraints, needsLayout := true }) = opened
          at kept covers open_ unclean held ran
      have whole := kept.sound sound
      have distinct := whole.distinct (tree_of_object held)
      have among : ∀ child ∈ object.children, ParentOf renderKeys opened.tree child id :=
        fun child listed => (whole.linked (tree_of_object held) child).mp listed
      have places : (object.script constraints).Places fun placement =>
          placement = .viewportSliver → ∀ child, ParentOf renderKeys opened.tree child id →
            opened.isRepaintBoundary child = false := by
        refine (script_places object constraints).mono ?_
        intro placement viewport sliver child named
        obtain ⟨scrollOffset, extent, kind⟩ := viewport sliver
        exact sliver_within whole held kind named
      obtain ⟨_, _, ⟨kind, same, own⟩, settles⟩ := perform_keeps (layout_keeps fuel) whole open_
        unclean held rfl (script_lays object constraints) among distinct ran
      have covers := covers.trans (perform_covers (layout_keeps fuel) ih whole open_ unclean held
        rfl (script_lays object constraints) places among distinct ran)
      cases caught with
      | error failure =>
        rw [change_ends_iff] at ended
        cases ended
        -- the constraints are taken back, and nothing else of the look has changed
        have restored : middle.CoversBut (middle.modify id fun current =>
            { current with constraints := object.constraints }) (· = id) :=
          modify_covers _ (fun _ _ => rfl) fun _ _ => rfl
        have there : (middle.modify id fun current =>
            { current with constraints := object.constraints }).objects id =
              some { object with kind, needsLayout := true } := by
          rw [modify_objects, if_pos rfl, own]
          rfl
        exact { (covers.trans restored).close found there
          (.inl (ranged_look same rfl rfl rfl)) with }
      | ok laid =>
        have fields : laid.kind.unlaid = object.kind.unlaid := by
          obtain ⟨_, _, same, plain⟩ := (settles laid rfl).ends (script_lays object constraints)
          rw [← same]
          exact plain
        have plain : ∀ before, middle.objects id = some before →
            (before.settle laid).unlaid = before.unlaid := by
          intro before held
          cases own.symm.trans held
          simp only [RenderObject.unlaid, RenderObject.settle, fields, same]
        have settled : start.CoversBut (middle.modify id fun current => current.settle laid)
            (· = id) := covers.trans (modify_covers _ plain fun _ _ => rfl)
        have there : (middle.modify id fun current => current.settle laid).objects id =
            some (RenderObject.settle { object with
              kind, constraints := some constraints, needsLayout := true } laid) := by
          rw [modify_objects, if_pos rfl, own]
          rfl
        cases ended
        dsimp only
        split
        case isTrue =>
          -- what is marked is announced
          have sound : RenderTree.Sound (middle.modify id fun current =>
              current.settle laid).tree (middle.modify id fun current =>
                current.settle laid).nextId := by
            rw [settled.tree, settled.nextId]
            exact sound
          obtain ⟨grows, scheduled, announced⟩ := mark_paint_announces id sound.forest
            (fun id there => (sound.issued id there).2)
            (by rw [tree_of_object there]; rfl)
          have covers : start.CoversBut ((middle.modify id fun current =>
              current.settle laid).markNeedsPaint id) (· = id) :=
            settled.trans ⟨rfl, rfl, rfl, grows, scheduled, fun other object now found there => by
              cases found.symm.trans there
              exact .inr (.inl rfl), fun other parent object now found there _ => by
              cases found.symm.trans there
              exact .inl rfl⟩
          exact { covers.close found there (.inr (announced_of_tree settled.tree announced)) with }
        case isFalse same_ =>
          rw [not_or, not_not, not_not] at same_
          exact { settled.close found there
            (.inl (ranged_look fields rfl same_.1.symm same_.2)) with }

end Running

end Dui
