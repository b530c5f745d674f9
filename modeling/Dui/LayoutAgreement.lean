import Dui.PaintedLayout

/-! Layout that skips what is laid out already against layout from scratch. Two owners of the
same tree agree about every object that neither needs to lay out again; and where one of them
has laid an object out, so can the other. -/
namespace Dui
open Effect ForestEdit LayoutScript Transition

/-- The same tree with nothing laid out. -/
def RenderOwner.fromScratch (owner : RenderOwner) : RenderOwner :=
  { owner with objects := owner.tree }

/-- What layout decides of an object: its size or its sliver geometry, where it is, and what
else its class works out, as the visible range of a list is. -/
def RenderObject.arrangement (object : RenderObject) : Measure × Offset × RenderKind :=
  (object.measure, object.offset, object.kind)

/-! Scripts that are run over children who measure the same. -/

section Scripts
variable {α : Type} {objects others : RenderId → Option RenderObject} {unlaid : RenderKind}

/-- The children that both have laid out under the same constraints measure the same. -/
def AlikeAmong (objects others : RenderId → Option RenderObject) (children : List RenderId) :
    Prop :=
  ∀ child ∈ children, ∀ laid again, objects child = some laid → others child = some again →
    laid.needsLayout = false → again.needsLayout = false →
    laid.constraints = again.constraints → laid.measure = again.measure

theorem AlikeAmong.erase {children : List RenderId} (alike : AlikeAmong objects others children)
    (child : RenderId) : AlikeAmong objects others (children.erase child) :=
  fun other listed => alike other (List.mem_of_mem_erase listed)

/-- Scripts over alike children end with the same. -/
theorem settles_agree {post another : α → Prop} {after : α → List RenderId → Prop} :
    ∀ {script : LayoutScript α} {left : List RenderId}, script.Lays unlaid left after →
      AlikeAmong objects others left → script.Settles objects post →
      script.Settles others another → ∃ value, post value ∧ another value := by
  intro script
  induction script with
  | done value => exact fun _ _ first second => ⟨value, first, second⟩
  | fail failure => exact fun _ _ first _ => first.elim
  | put kind next ih => exact fun lays alike first second => ih lays.2 alike first second
  | lay placement child constraints offset next ih =>
    rintro left ⟨listed, lays⟩ alike ⟨laid, found, clean, under, _, first⟩
      ⟨again, there, also, same, _, second⟩
    have measured := alike child listed laid again found there clean also (under.trans same.symm)
    rw [← measured] at second
    exact ih laid.measure (lays _) (alike.erase child) first second

/-- Scripts over alike children give them the same. -/
theorem gives_agree {post another : α → Prop} {after : α → List RenderId → Prop}
    {target : RenderId} {given : LayoutConstraints} {placed : Offset} :
    ∀ {script : LayoutScript α} {left : List RenderId}, script.Lays unlaid left after →
      AlikeAmong objects others left → script.Settles objects post →
      script.Settles others another → script.Gives objects target given placed →
      script.Gives others target given placed := by
  intro script
  induction script with
  | done value => exact fun _ _ _ _ gives => gives
  | fail failure => exact fun _ _ _ _ gives => gives
  | put kind next ih =>
    exact fun lays alike first second gives => ih lays.2 alike first second gives
  | lay placement child constraints offset next ih =>
    rintro left ⟨listed, lays⟩ alike ⟨laid, found, clean, under, _, first⟩
      ⟨again, there, also, same, _, second⟩ (here | ⟨still, held, gives⟩)
    · exact .inl here
    · cases found.symm.trans held
      have measured :=
        alike child listed laid again found there clean also (under.trans same.symm)
      rw [← measured] at second
      refine .inr ⟨again, there, ?_⟩
      rw [← measured]
      exact ih laid.measure (lays _) (alike.erase child) first second gives

end Scripts

/-! Owners of the same tree. -/

section Owners
variable {model owner next start : RenderOwner} {id self child : RenderId}
  {object laid again : RenderObject}

/-- Objects of the same tree have the same script. -/
theorem script_of_tree (same : laid.unlaid = again.unlaid) (constraints : LayoutConstraints) :
    laid.script constraints = again.script constraints := by
  have kinds : laid.kind.unlaid = again.kind.unlaid := congrArg RenderObject.kind same
  have children := congrArg RenderObject.children same
  rw [unlaid_children, unlaid_children] at children
  unfold RenderObject.script
  rw [← perform_unlaid laid.kind, kinds, perform_unlaid, children]

/-- No object is deeper than there are objects. -/
theorem room_initially (owner : RenderOwner) (id : RenderId) :
    Room renderKeys owner.tree (List.range owner.nextId) owner.nextId id := by
  have room : Room renderKeys owner.tree (List.range owner.nextId)
    (List.range owner.nextId).length id := .initially id
  rwa [List.length_range] at room

/-- What the two owners have to do with each other: they have one tree, and what they do not
need to lay out is as its script leaves it. -/
structure Alike (model owner : RenderOwner) : Prop where
  tree : owner.tree = model.tree
  nextId : owner.nextId = model.nextId
  sound : RenderTree.Sound model.tree model.nextId
  first : model.Current
  second : owner.Current

namespace Alike
variable (alike : Alike model owner)
include alike

theorem unlaid (found : model.objects id = some laid) (there : owner.objects id = some again) :
    laid.unlaid = again.unlaid := by
  have held := tree_of_object there
  rw [alike.tree, tree_of_object found] at held
  exact Option.some.inj held

theorem owner_sound : RenderTree.Sound owner.tree owner.nextId := by
  rw [alike.tree, alike.nextId]
  exact alike.sound

/-- An object of the one is one of the other. -/
theorem found (there : model.objects id = some laid) : ∃ again, owner.objects id = some again := by
  have held := tree_of_object there
  rw [← alike.tree] at held
  obtain ⟨again, found, _⟩ := object_of_tree held
  exact ⟨again, found⟩

theorem listed (there : model.objects id = some laid) : id ∈ List.range model.nextId :=
  alike.sound.among ((congrArg Option.isSome (tree_of_object there)).trans rfl)

/-- What both have laid out under the same constraints is the same, by induction down the
tree. -/
theorem same_measure (steps : Nat) : ∀ id laid again,
    Room renderKeys model.tree (List.range model.nextId) steps id →
    model.objects id = some laid → owner.objects id = some again → laid.needsLayout = false →
    again.needsLayout = false → laid.constraints = again.constraints →
    laid.measure = again.measure ∧ laid.kind = again.kind := by
  induction steps with
  | zero =>
    intro id laid again room found
    exact absurd room (Room.positive alike.sound.forest (alike.listed found))
  | succ steps ih =>
    intro id laid again room found there clean also same
    obtain ⟨constraints, under, first⟩ := alike.first id laid found clean
    obtain ⟨others, constrained, second⟩ := alike.second id again there also
    cases under.symm.trans (same.trans constrained)
    rw [← script_of_tree (alike.unlaid found there)] at second
    have below : AlikeAmong model.objects owner.objects laid.children := by
      intro child listed laid' again' found' there' clean' also' same'
      have named := (alike.sound.linked (tree_of_object found) child).mp listed
      exact (ih child laid' again' (room.child alike.sound.forest (alike.listed found) named)
        found' there' clean' also' same').1
    obtain ⟨value, ⟨measured, kind⟩, again_measured, again_kind⟩ :=
      settles_agree (script_lays laid constraints) below first second
    exact ⟨measured.symm.trans again_measured, kind.symm.trans again_kind⟩

theorem among (children : List RenderId) :
    AlikeAmong model.objects owner.objects children := by
  intro child _ laid again found there clean also same
  exact (alike.same_measure model.nextId child laid again (room_initially model child) found there
    clean also same).1

end Alike

/-! Layout returns where it has returned for the other owner. -/

/-- Laying out a child returns, and leaves it to measure what it does in the model. -/
theorem lay_placed_returns {lay : RenderId → LayoutConstraints → Rendering Unit}
    (self : RenderId) (placement : Placement) {constraints : LayoutConstraints} (offset : Offset)
    (lays : LaysOut lay) (alike : Alike model start) (dirty : start.ParentDirty child)
    (found : model.objects child = some laid) (clean : laid.needsLayout = false)
    (under : laid.constraints = some constraints)
    (returns : ∀ owner, Alike model owner → owner.ParentDirty child →
      ∃ next, lay child constraints owner = some (.ok (), next)) :
    ∃ next after, layPlaced lay placement self child constraints offset start =
        some (.ok (), next) ∧ Alike model next ∧
      start.Kept next (Below start.tree child) ∧ next.objects child = some after ∧
      after.measure = laid.measure := by
  obtain ⟨object, there⟩ := alike.found found
  have ends : ∃ next, layPlaced lay placement self child constraints offset start =
      some (.ok (), next) := by
    unfold layPlaced
    split
    · have kept : start.Kept (start.place placement self child offset) (· = child) :=
        place_kept placement offset
      have placed : (start.place placement self child offset).Current :=
        place_current alike.second alike.owner_sound dirty placement offset
      have apart : ∀ parent, ParentOf renderKeys start.tree child parent → ¬parent = child :=
        fun parent named => (alike.owner_sound.parent_ne named).symm
      obtain ⟨next, ran⟩ := returns (start.place placement self child offset)
        ⟨kept.tree.trans alike.tree, kept.nextId.trans alike.nextId, alike.sound, alike.first,
          placed⟩ (kept.parent_dirty dirty apart)
      exact ⟨next, by rw [Run.change_ends_iff]; exact ran⟩
    · obtain ⟨next, ran⟩ := returns start alike dirty
      exact ⟨_, Run.bind_ends_iff.mpr (.inl ⟨(), next, ran, rfl⟩)⟩
  obtain ⟨next, ran⟩ := ends
  obtain ⟨current, kept, after⟩ := lay_placed_keeps lays alike.owner_sound alike.second dirty there
    ran
  obtain ⟨after, here, also, constrained, _⟩ := after rfl
  have alike : Alike model next := ⟨kept.tree.trans alike.tree, kept.nextId.trans alike.nextId,
    alike.sound, alike.first, current⟩
  have measured := alike.among [child] child (List.mem_singleton_self _) laid after found here clean
    also (under.trans constrained.symm)
  exact ⟨next, after, ran, alike, kept, here, measured.symm⟩

/-- A script that the model settles returns, by induction on it. -/
theorem perform_returns {lay : RenderId → LayoutConstraints → Rendering Unit} (lays : LaysOut lay)
    (returns : ∀ owner child laid constraints, Alike model owner → owner.ParentDirty child →
      ParentOf renderKeys model.tree child self → model.objects child = some laid →
      laid.needsLayout = false → laid.constraints = some constraints →
      ∃ next, lay child constraints owner = some (.ok (), next))
    {α : Type} {post : α → Prop} {after : α → List RenderId → Prop} :
    ∀ {script : LayoutScript α} {left : List RenderId} {start : RenderOwner}
      {object : RenderObject}, Alike model start → start.ParentDirty self →
      start.objects self = some object → object.needsLayout = true →
      script.Lays object.kind.unlaid left after →
      (∀ child ∈ left, ParentOf renderKeys model.tree child self) →
      script.Settles model.objects post →
      ∃ value next, script.perform lay self start = some (.ok value, next) := by
  intro script
  induction script with
  | done value =>
    intro left start object alike dirty found needs lies named settles
    exact ⟨value, start, rfl⟩
  | fail failure =>
    intro left start object alike dirty found needs lies named settles
    exact settles.elim
  | put kind script ih =>
    intro left start object alike dirty found needs lies named settles
    obtain ⟨kept, current, dirty, moved⟩ :=
      put_keeps alike.owner_sound alike.second dirty found needs lies.1
    have alike : Alike model _ := ⟨kept.tree.trans alike.tree, kept.nextId.trans alike.nextId,
      alike.sound, alike.first, current⟩
    rw [← lies.1] at lies
    obtain ⟨value, next, ran⟩ := ih alike dirty moved needs lies.2 named settles
    exact ⟨value, next, by rw [LayoutScript.perform, Run.change_ends_iff]; exact ran⟩
  | lay placement child constraints offset rest ih =>
    intro left start object alike dirty found needs lies named settles
    obtain ⟨laid, held, clean, under, _, settles⟩ := settles
    have up := named child lies.1
    have here : ParentOf renderKeys start.tree child self := by
      rw [alike.tree]
      exact up
    have opened : ∀ owner, Alike model owner → owner.ParentDirty child →
        ∃ next, lay child constraints owner = some (.ok (), next) :=
      fun owner alike dirty => returns owner child laid constraints alike dirty up held clean under
    have above : start.ParentDirty child := by
      intro parent object' other there
      cases here.unique other
      cases found.symm.trans there
      exact needs
    obtain ⟨middle, after, ran, alike', kept, there, measured⟩ :=
      lay_placed_returns self placement offset lays alike above held clean under opened
    have same : middle.objects self = some object :=
      (kept.others self (parent_outside alike.owner_sound here)).trans found
    have upward : ∀ parent, ParentOf renderKeys start.tree self parent →
        ¬Below start.tree child parent := fun parent higher below =>
      parent_outside alike.owner_sound here (.head higher below)
    obtain ⟨value, next, later⟩ := ih laid.measure alike' (kept.parent_dirty dirty upward) same
      needs (lies.2 _) (fun other listed => named other (List.mem_of_mem_erase listed)) settles
    refine ⟨value, next, ?_⟩
    rw [LayoutScript.perform, Run.bind_ends_iff]
    refine .inl ⟨(), middle, ran, ?_⟩
    rw [Run.bind_ends_iff]
    refine .inl ⟨after.measure, middle, ?_, ?_⟩
    · unfold measureOf
      simp only [Run.read_ends_iff, there]
      rfl
    · rw [measured]
      exact later

/-- Layout returns where the model has laid out the object, by induction on the depth it may
reach, of which there is enough. -/
theorem layout_returns (fuel : Nat) : ∀ owner id laid constraints,
    Room renderKeys model.tree (List.range model.nextId) fuel id → Alike model owner →
    owner.ParentDirty id → model.objects id = some laid → laid.needsLayout = false →
    laid.constraints = some constraints →
    ∃ next, layoutObject fuel id constraints owner = some (.ok (), next) := by
  induction fuel with
  | zero =>
    intro owner id laid constraints room alike dirty found
    exact absurd room (Room.positive alike.sound.forest (alike.listed found))
  | succ fuel ih =>
    intro owner id laid constraints room alike dirty found clean under
    obtain ⟨object, there⟩ := alike.found found
    by_cases skipped : object.needsLayout = false ∧ object.constraints = some constraints
    · refine ⟨owner, ?_⟩
      rw [layoutObject, Run.read_ends_iff, there]
      dsimp only
      rw [if_pos skipped]
      rfl
    have apart : ∀ parent, ParentOf renderKeys owner.tree id parent → ¬parent = id :=
      fun parent named => (alike.owner_sound.parent_ne named).symm
    have opened : ∀ before, owner.objects id = some before → RenderObject.unlaid { before with
        constraints := some constraints, needsLayout := true } = before.unlaid := fun _ _ => rfl
    have kept := modify_kept _ opened
    have current := modify_current alike.second alike.owner_sound opened dirty
      fun _ _ clean => Bool.noConfusion clean
    have moved : (owner.modify id fun before => { before with
        constraints := some constraints, needsLayout := true }).objects id =
          some { object with constraints := some constraints, needsLayout := true } := by
      rw [modify_objects, if_pos rfl, there]
      rfl
    have open_ : Alike model _ := ⟨kept.tree.trans alike.tree, kept.nextId.trans alike.nextId,
      alike.sound, alike.first, current⟩
    obtain ⟨_, same, settles⟩ := alike.first id laid found clean
    cases under.symm.trans same
    have fields := alike.unlaid found there
    rw [script_of_tree fields] at settles
    have children := congrArg RenderObject.children fields
    rw [unlaid_children, unlaid_children] at children
    have named : ∀ child ∈ object.children, ParentOf renderKeys model.tree child id := by
      intro child listed
      rw [← children] at listed
      exact (alike.sound.linked (tree_of_object found) child).mp listed
    have returns : ∀ owner child laid constraints, Alike model owner → owner.ParentDirty child →
        ParentOf renderKeys model.tree child id → model.objects child = some laid →
        laid.needsLayout = false → laid.constraints = some constraints →
        ∃ next, layoutObject fuel child constraints owner = some (.ok (), next) :=
      fun owner child laid constraints also dirty up => ih owner child laid constraints
        (room.child alike.sound.forest (alike.listed found) up) also dirty
    obtain ⟨value, middle, ran⟩ := perform_returns (layout_keeps fuel) returns open_
      (kept.parent_dirty dirty apart) moved rfl (script_lays object constraints) named settles
    apply Exists.intro
    rw [layoutObject, Run.read_ends_iff, there]
    dsimp only
    rw [if_neg skipped, Run.change_ends_iff, Run.attempt_ends_iff]
    exact ⟨.ok value, middle, ran, rfl⟩

/-! Whole layouts. -/

theorem scratch_tree (owner : RenderOwner) : owner.fromScratch.tree = owner.tree := by
  funext id
  change ((owner.objects id).map RenderObject.unlaid).map RenderObject.unlaid = _
  rw [Option.map_map]
  unfold RenderOwner.tree
  congr 1
  funext object
  simp only [Function.comp_apply, RenderObject.unlaid, RenderKind.unlaid_unlaid]

/-- Where nothing is laid out nothing is out of date. -/
theorem scratch_orderly (orderly : owner.Orderly) : owner.fromScratch.Orderly := by
  have dirty : ∀ {id object}, owner.fromScratch.objects id = some object →
      object.needsLayout = true := by
    intro id object found
    obtain ⟨before, _, rfl⟩ := object_of_tree found
    rfl
  obtain ⟨sound, ⟨view, rooted, kind, placed⟩, _, _⟩ := orderly
  refine ⟨?_, ⟨view.unlaid, tree_of_object rooted, ?_, rfl⟩, fun _ _ _ found => dirty found, ?_⟩
  · rw [scratch_tree]
    exact sound
  · rw [unlaid_kind, kind]
    rfl
  · intro id object found clean
    cases (dirty found).symm.trans clean

/-- An object that both have laid out under the same constraints, and placed at the same
offset, is the same. -/
theorem Alike.same_object (alike : Alike model owner) (found : model.objects id = some laid)
    (there : owner.objects id = some again) (clean : laid.needsLayout = false)
    (also : again.needsLayout = false) (same : laid.constraints = again.constraints)
    (placed : laid.offset = again.offset) : again = laid := by
  obtain ⟨measure, kind⟩ := alike.same_measure model.nextId id laid again (room_initially model id)
    found there clean also same
  have fields := alike.unlaid found there
  obtain ⟨id, parent, children, kind', needsLayout, constraints, measure', offset⟩ := laid
  obtain ⟨id', parent', children', kind'', needsLayout', constraints', measure'', offset'⟩ := again
  simp only [RenderObject.unlaid, RenderObject.mk.injEq] at fields
  obtain ⟨rfl, rfl, rfl, _⟩ := fields
  cases measure
  cases kind
  cases same
  cases placed
  rw [show needsLayout = needsLayout' from clean.trans also.symm]

/-- What a current object paints is laid out, and is the same, by both of the owners. -/
theorem Alike.same_child (alike : Alike model owner) (found : model.objects id = some object)
    (there : owner.objects id = some object) (clean : object.needsLayout = false)
    (all : object.laysAll = true) (listed : child ∈ object.paintChildren) :
    ∃ laid, model.objects child = some laid ∧ owner.objects child = some laid ∧
      laid.needsLayout = false := by
  have counted := alike.sound.counted (tree_of_object found)
  rw [unlaid_kind, RenderKind.unlaid_count, unlaid_children] at counted
  obtain ⟨constraints, under, first⟩ := alike.first id object found clean
  obtain ⟨_, again, second⟩ := alike.second id object there clean
  cases under.symm.trans again
  obtain ⟨_, same, given, offset, gives⟩ :=
    serves_of_painted (alike.first id object found clean) counted (not_surplus all) listed
  cases under.symm.trans same
  have others := gives_agree (script_lays object constraints) (alike.among _) first second gives
  obtain ⟨laid, here, clean, constrained, placed⟩ := settles_gives first gives
  obtain ⟨also, held, cleaned, too, at_⟩ := settles_gives second others
  have equal := alike.same_object here held clean cleaned (constrained.trans too.symm)
    (placed.trans at_.symm)
  exact ⟨laid, here, equal ▸ held, clean⟩

variable {viewport : BoxConstraints}

/-- In every run, a layout that returns leaves everything painted as a layout of the same tree
from scratch does, and that one returns too, if no object of the tree has more children than
its class lays out. -/
theorem incremental_layout_exact (reached : Reachable renderMachine owner)
    (laid : layoutRender viewport owner = some (.ok (), next))
    (all : ∀ id object, Below owner.tree owner.root id → owner.objects id = some object →
      object.laysAll = true) :
    ∃ scratch, layoutRender viewport owner.fromScratch = some (.ok (), scratch) ∧
      ∀ id, next.Painted id → scratch.objects id = next.objects id := by
  have orderly := orderly_reached reached
  have fresh := scratch_orderly orderly
  obtain ⟨after, tree, nextId, root, view, rooted, clean, under⟩ := layout_ends orderly laid
  have start : Alike next owner.fromScratch := ⟨(scratch_tree owner).trans tree.symm, nextId.symm,
    after.sound, after.current, fresh.current⟩
  rw [root] at rooted
  have enough : Room renderKeys next.tree (List.range next.nextId) owner.nextId owner.root := by
    have room := room_initially next owner.root
    rw [nextId] at room ⊢
    exact room
  obtain ⟨last, ran⟩ := layout_returns owner.nextId owner.fromScratch owner.root view
    (.box viewport) enough start fresh.above rooted clean under
  have returned : layoutRender viewport owner.fromScratch =
      some (.ok (), { last with dirtyLayout := ∅ }) := by
    rw [layoutRender, Run.read_ends_iff]
    exact Run.bind_ends_iff.mpr (.inl ⟨(), last, ran, rfl⟩)
  refine ⟨_, returned, ?_⟩
  obtain ⟨final, tree', nextId', root', view', rooted', clean', under'⟩ :=
    layout_ends fresh returned
  have alike : Alike next { last with dirtyLayout := ∅ } :=
    ⟨tree'.trans ((scratch_tree owner).trans tree.symm), nextId'.trans nextId.symm, after.sound,
      after.current, final.current⟩
  have same : ∀ id, next.Painted id → ∃ object, next.objects id = some object ∧
      RenderOwner.objects { last with dirtyLayout := ∅ } id = some object ∧
        object.needsLayout = false := by
    intro id painted
    induction painted with
    | root =>
      rw [root]
      have placed : view.offset = {} := by
        obtain ⟨again, held, _, placed⟩ := after.root
        rw [root, rooted] at held
        cases held
        exact placed
      have placed' : view'.offset = {} := by
        obtain ⟨again, held, _, placed⟩ := final.root
        cases rooted'.symm.trans held
        exact placed
      rw [root'] at rooted'
      have equal := alike.same_object rooted rooted' clean clean' (under.trans under'.symm)
        (placed.trans placed'.symm)
      exact ⟨view, rooted, equal ▸ rooted', clean⟩
    | child painted found listed ih =>
      obtain ⟨object, held, there, clean⟩ := ih
      cases found.symm.trans held
      have below := painted_below after.sound painted
      rw [tree, root] at below
      obtain ⟨before, here, same⟩ := lays_all_of_tree tree found
      have lays := same.symm.trans (all _ before below here)
      exact alike.same_child found there clean lays listed
  intro id painted
  obtain ⟨object, found, there, _⟩ := same id painted
  exact there.trans found.symm

theorem padded_text_exact : ∃ owner next scratch, Reachable renderMachine owner ∧
    layoutRender window owner = some (.ok (), next) ∧
    layoutRender window owner.fromScratch = some (.ok (), scratch) ∧ next.Painted 3 ∧
      scratch.objects 3 = next.objects 3 := by
  obtain ⟨owner, next, reached, laid, painted, all⟩ := padded_text_laid
  obtain ⟨scratch, returned, same⟩ :=
    incremental_layout_exact reached laid fun id object _ => all id object
  exact ⟨owner, next, scratch, reached, laid, returned, painted, same 3 painted⟩

/-- A padding lays out the first of two texts, which then change places. The one that was
first is painted where it was laid out, and from scratch it is not laid out at all. -/
theorem former_first_stale : ¬∀ (owner next scratch : RenderOwner) (viewport : BoxConstraints),
    Reachable renderMachine owner → layoutRender viewport owner = some (.ok (), next) →
      layoutRender viewport owner.fromScratch = some (.ok (), scratch) →
      ∀ id, next.Painted id → (next.objects id).map RenderObject.arrangement =
        (scratch.objects id).map RenderObject.arrangement := by
  intro always
  obtain ⟨owner, ran, computed⟩ : ∃ owner, renderMachine.run RenderOwner.initially
      (paddedTexts [3, 4] ++ [.layout window, padTexts [4, 3]]) = some owner ∧
        ((layoutRender window owner).bind fun (outcome, next) =>
          (layoutRender window owner.fromScratch).bind fun (other, scratch) =>
            (next.objects next.root).bind fun view => (next.objects 2).map fun padding =>
              (outcome.toOption, other.toOption,
                decide (2 ∈ view.paintChildren ∧ 3 ∈ padding.paintChildren),
                decide ((next.objects 3).map (·.offset) = (scratch.objects 3).map (·.offset)))) =
          some (some (), some (), true, false) :=
    Option.bind_eq_some_iff.mp (by decide +kernel)
  have reached : Reachable renderMachine owner := Reachable.run (.start rfl) ran
  obtain ⟨⟨outcome, next⟩, laid, computed⟩ := Option.bind_eq_some_iff.mp computed
  obtain ⟨⟨other, scratch⟩, returned, computed⟩ := Option.bind_eq_some_iff.mp computed
  obtain ⟨view, rooted, computed⟩ := Option.bind_eq_some_iff.mp computed
  obtain ⟨padding, found, computed⟩ := Option.map_eq_some_iff.mp computed
  simp only [Prod.mk.injEq, decide_eq_true_eq, decide_eq_false_iff_not] at computed
  obtain ⟨first, second, ⟨top, below⟩, moved⟩ := computed
  cases outcome with
  | error failure => cases first
  | ok value =>
    cases other with
    | error failure => cases second
    | ok value =>
      have same := always owner next scratch window reached laid returned 3
        (.child (.child .root rooted top) found below)
      have offsets := congrArg (Option.map fun found => found.2.1) same
      rw [Option.map_map, Option.map_map] at offsets
      exact moved offsets

end Owners

end Dui
