import Mathlib.Data.List.Perm.Subperm
import Dui.RenderForest

/-! What layout leaves in the objects. An object that does not need layout is current: it
measures what its script finds, given what its children measure, and the children that the
script lays out are themselves as the script leaves them. Every layout keeps this of all
objects, whether it returns or throws. -/
namespace Dui
open Effect Effect.Run ForestEdit

/-- What layout records of an object. -/
def RenderObject.result (object : RenderObject) :
    Bool × Option LayoutConstraints × Offset × Measure :=
  (object.needsLayout, object.constraints, object.offset, object.measure)

namespace LayoutScript
variable {α β : Type} {script : LayoutScript α} {rest : α → LayoutScript β} {unlaid : RenderKind}

/-- The script only lays out the given children, each of them once, and the fields it sets
are these before layout; this holds of what it ends with and the children that are left. -/
def Lays (unlaid : RenderKind) : LayoutScript α → List RenderId → (α → List RenderId → Prop) → Prop
  | .done value, left, post => post value left
  | .fail _, _, _ => True
  | .put kind next, left, post => kind.unlaid = unlaid ∧ next.Lays unlaid left post
  | .lay _ child _ _ next, left, post =>
    child ∈ left ∧ ∀ measure, (next measure).Lays unlaid (left.erase child) post

/-- This holds of what the script ends with where the children are as it leaves them. -/
def Settles (objects : RenderId → Option RenderObject) : LayoutScript α → (α → Prop) → Prop
  | .done value, post => post value
  | .fail _, _ => False
  | .put _ next, post => next.Settles objects post
  | .lay _ child constraints offset next, post =>
    ∃ laid, objects child = some laid ∧ laid.needsLayout = false ∧
      laid.constraints = some constraints ∧ laid.offset = offset ∧
      (next laid.measure).Settles objects post

/-! Which children a script lays out. -/

theorem lays_bind {post : β → List RenderId → Prop} : ∀ {script : LayoutScript α}
    {left : List RenderId}, (script >>= rest).Lays unlaid left post ↔
      script.Lays unlaid left fun value left => (rest value).Lays unlaid left post := by
  intro script
  induction script with
  | done value => exact Iff.rfl
  | fail failure => exact Iff.rfl
  | put kind next ih => exact and_congr_right fun _ => ih
  | lay placement child constraints offset next ih =>
    intro left
    exact and_congr_right fun _ => forall_congr' fun measure => ih measure

theorem Lays.mono {weak strong : α → List RenderId → Prop}
    (weaker : ∀ value left, strong value left → weak value left) :
    ∀ {script : LayoutScript α} {left : List RenderId}, script.Lays unlaid left strong →
      script.Lays unlaid left weak := by
  intro script
  induction script with
  | done value => exact fun lays => weaker _ _ lays
  | fail failure => exact id
  | put kind next ih => exact fun lays => ⟨lays.1, ih lays.2⟩
  | lay placement child constraints offset next ih =>
    exact fun lays => ⟨lays.1, fun measure => ih measure (lays.2 measure)⟩

/-- A script that lays out some children lays out some of more. -/
theorem Lays.more {post : α → Prop} : ∀ {script : LayoutScript α} {left more : List RenderId},
    left.Subperm more → script.Lays unlaid left (fun value _ => post value) →
      script.Lays unlaid more fun value _ => post value := by
  intro script
  induction script with
  | done value => exact fun _ lays => lays
  | fail failure => exact fun _ _ => trivial
  | put kind next ih => exact fun among lays => ⟨lays.1, ih among lays.2⟩
  | lay placement child constraints offset next ih =>
    intro left more among lays
    exact ⟨among.subset lays.1, fun measure => ih measure (among.erase child) (lays.2 measure)⟩

theorem lays_lift {outcome : Except Failure α} {left : List RenderId}
    {post : α → List RenderId → Prop} (holds : ∀ value, post value left) :
    (lift outcome).Lays unlaid left post := by
  cases outcome with
  | ok value => exact holds value
  | error failure => trivial

/-- Going through children, each of which is laid out when it is come to. -/
theorem lays_fold {body : α → RenderId → LayoutScript α}
    (each : ∀ value child rest,
      (body value child).Lays unlaid (child :: rest) fun _ left => left = rest)
    (children : List RenderId) : ∀ value,
      (children.foldlM body value).Lays unlaid children fun _ left => left = [] := by
  induction children with
  | nil => exact fun _ => rfl
  | cons child rest ih =>
    intro value
    rw [List.foldlM_cons, lays_bind]
    refine (each value child rest).mono fun value left same => ?_
    rw [same]
    exact ih value

/-! Scripts whose children are as they leave them. -/

section Settling
variable {objects others : RenderId → Option RenderObject}

theorem settles_bind {post : β → Prop} : ∀ {script : LayoutScript α},
    (script >>= rest).Settles objects post ↔
      script.Settles objects fun value => (rest value).Settles objects post := by
  intro script
  induction script with
  | done value => exact Iff.rfl
  | fail failure => exact Iff.rfl
  | put kind next ih => exact ih
  | lay placement child constraints offset next ih =>
    refine exists_congr fun laid => ?_
    refine and_congr_right fun _ => and_congr_right fun _ => and_congr_right fun _ =>
      and_congr_right fun _ => ?_
    exact ih laid.measure

theorem Settles.mono {weak strong : α → Prop} (weaker : ∀ value, strong value → weak value) :
    ∀ {script : LayoutScript α}, script.Settles objects strong → script.Settles objects weak := by
  intro script
  induction script with
  | done value => exact weaker value
  | fail failure => exact id
  | put kind next ih => exact fun settles => ih settles
  | lay placement child constraints offset next ih =>
    rintro ⟨laid, found, clean, under, at_, settles⟩
    exact ⟨laid, found, clean, under, at_, ih laid.measure settles⟩

theorem settles_lift {outcome : Except Failure α} {post : α → Prop} :
    (lift outcome).Settles objects post ↔ ∃ value, outcome = .ok value ∧ post value := by
  cases outcome with
  | ok value => simp [lift, Settles]
  | error failure => simp [lift, Settles]

/-- What a script ends with, told by what it lays out. -/
theorem Settles.ends {post : α → Prop} {after : α → List RenderId → Prop} :
    ∀ {script : LayoutScript α} {left : List RenderId}, script.Lays unlaid left after →
      script.Settles objects post → ∃ value rest, post value ∧ after value rest := by
  intro script
  induction script with
  | done value => exact fun lays settles => ⟨value, _, settles, lays⟩
  | fail failure => exact fun _ settles => settles.elim
  | put kind next ih => exact fun lays settles => ih lays.2 settles
  | lay placement child constraints offset next ih =>
    rintro left ⟨_, lays⟩ ⟨laid, _, _, _, _, settles⟩
    exact ih laid.measure (lays _) settles

/-- What a script finds depends on the children it lays out. -/
theorem Settles.congr {post : α → Prop} {after : α → List RenderId → Prop} :
    ∀ {script : LayoutScript α} {left : List RenderId}, script.Lays unlaid left after →
      (∀ child ∈ left, (others child).map RenderObject.result =
        (objects child).map RenderObject.result) →
      script.Settles objects post → script.Settles others post := by
  intro script
  induction script with
  | done value => exact fun _ _ => id
  | fail failure => exact fun _ _ => id
  | put kind next ih => exact fun lays same => ih lays.2 same
  | lay placement child constraints offset next ih =>
    rintro left ⟨listed, lays⟩ same ⟨laid, found, clean, under, at_, settles⟩
    have kept := same child listed
    rw [found] at kept
    obtain ⟨other, there, results⟩ := Option.map_eq_some_iff.mp kept
    simp only [RenderObject.result, Prod.mk.injEq] at results
    obtain ⟨needs, constrained, placed, measured⟩ := results
    refine ⟨other, there, needs.trans clean, constrained.trans under, placed.trans at_, ?_⟩
    rw [measured]
    exact ih laid.measure (lays _) (fun child listed =>
      same child (List.mem_of_mem_erase listed)) settles

end Settling

end LayoutScript

open LayoutScript

/-! The scripts of the classes lay out children of their objects. -/

section Classes
variable {unlaid : RenderKind}

theorem layout_child_lays {child : RenderId} {constraints : BoxConstraints} {offset : Offset}
    {rest : List RenderId} {post : Size → List RenderId → Prop} (holds : ∀ size, post size rest) :
    (layoutChild child constraints offset).Lays unlaid (child :: rest) post := by
  refine ⟨List.mem_cons_self, fun measure => ?_⟩
  rw [List.erase_cons_head]
  exact holds _

theorem layout_box_child_lays {child : RenderId} {constraints : BoxConstraints} {offset : Offset}
    {rest : List RenderId} {post : Size → List RenderId → Prop} (holds : ∀ size, post size rest) :
    (layoutBoxChild child constraints offset).Lays unlaid (child :: rest) post := by
  refine ⟨List.mem_cons_self, fun measure => ?_⟩
  rw [List.erase_cons_head]
  exact holds _

theorem layout_sliver_lays {child : RenderId} {constraints : SliverConstraints} {offset : Offset}
    {rest : List RenderId} {post : SliverGeometry → List RenderId → Prop}
    (holds : ∀ geometry, post geometry rest) :
    (layoutSliver child constraints offset).Lays unlaid (child :: rest) post := by
  refine ⟨List.mem_cons_self, fun measure => ?_⟩
  rw [List.erase_cons_head]
  exact holds _

/-- A script goes through all children of a list. -/
theorem fold_lays {α β : Type} {body : α → RenderId → LayoutScript α} {value : α}
    {children : List RenderId} {rest : α → LayoutScript β} {post : β → List RenderId → Prop}
    (each : ∀ value child rest,
      (body value child).Lays unlaid (child :: rest) fun _ left => left = rest)
    (after : ∀ value, (rest value).Lays unlaid [] post) :
    (children.foldlM body value >>= rest).Lays unlaid children post := by
  rw [lays_bind]
  refine (lays_fold each children value).mono fun value left same => ?_
  rw [same]
  exact after value

variable {constraints : BoxConstraints} {children : List RenderId}

theorem stacks_lay {body : Size → RenderId → LayoutScript Size}
    (each : ∀ extent child rest,
      (body extent child).Lays unlaid (child :: rest) fun _ left => left = rest) :
    (children.foldlM body {} >>= fun extent => lift (constraints.constrain extent)).Lays unlaid
      children fun _ _ => True :=
  fold_lays each fun _ => lays_lift fun _ => trivial

theorem v_stack_lays :
    (performVStack constraints children).Lays unlaid children fun _ _ => True := by
  unfold performVStack
  rw [lays_bind]
  refine lays_lift fun childConstraints => stacks_lay fun extent child rest => ?_
  rw [lays_bind]
  exact layout_child_lays fun _ => rfl

theorem h_stack_lays :
    (performHStack constraints children).Lays unlaid children fun _ _ => True := by
  unfold performHStack
  rw [lays_bind]
  refine lays_lift fun childConstraints => stacks_lay fun extent child rest => ?_
  rw [lays_bind]
  exact layout_child_lays fun _ => rfl

theorem stack_lays : (performStack constraints children).Lays unlaid children fun _ _ => True := by
  refine stacks_lay fun extent child rest => ?_
  rw [lays_bind]
  exact layout_child_lays fun _ => rfl

theorem padding_lays (insets : Insets) :
    (performPadding insets constraints children).Lays unlaid children fun _ _ => True := by
  cases children with
  | nil =>
    rw [performPadding]
    exact lays_lift fun _ => trivial
  | cons child rest =>
    rw [performPadding, lays_bind]
    refine lays_lift fun childConstraints => ?_
    rw [lays_bind]
    exact layout_child_lays fun _ => lays_lift fun _ => trivial

theorem proxy_lays : (performProxy constraints children).Lays unlaid children fun _ _ => True := by
  cases children with
  | nil =>
    rw [performProxy]
    exact lays_lift fun _ => trivial
  | cons child rest =>
    rw [performProxy, lays_bind]
    exact layout_child_lays fun _ => lays_lift fun _ => trivial

theorem view_lays : (performView constraints children).Lays unlaid children fun _ _ => True := by
  unfold performView
  split
  · trivial
  · rw [lays_bind]
    refine lays_lift fun childConstraints => fold_lays (fun _ child rest => ?_) fun _ => trivial
    exact layout_child_lays fun _ => rfl

theorem viewport_lays (scrollOffset : ℚ) :
    (performViewport scrollOffset constraints children).Lays unlaid children fun _ _ => True := by
  unfold performViewport
  split
  · trivial
  · refine fold_lays (fun preceding child rest => ?_) fun _ => trivial
    dsimp only
    rw [lays_bind]
    refine lays_lift fun childConstraints => ?_
    rw [lays_bind]
    exact layout_sliver_lays fun _ => rfl

theorem adapter_lays {constraints : SliverConstraints} :
    (performSliverToBoxAdapter constraints children).Lays unlaid children fun _ _ => True := by
  cases children with
  | nil => trivial
  | cons child rest =>
    rw [performSliverToBoxAdapter, lays_bind]
    exact layout_box_child_lays fun _ => lays_lift fun _ => trivial

theorem ranges_unlaid (list : FixedExtentList) (childCount : Nat)
    (constraints : SliverConstraints) :
    (list.updateRanges childCount constraints).unlaid = list.unlaid := by
  unfold FixedExtentList.updateRanges
  split <;> rfl

theorem list_lays (list : FixedExtentList) {constraints : SliverConstraints} :
    (performFixedExtentList list constraints children).Lays
      (RenderKind.fixedExtentList list).unlaid children fun found _ =>
        found.2.unlaid = list.unlaid := by
  have same := ranges_unlaid list children.length constraints
  unfold performFixedExtentList
  refine ⟨congrArg RenderKind.fixedExtentList same, ?_⟩
  split
  · rw [lays_bind]
    exact lays_lift fun _ => same
  · rw [lays_bind]
    refine lays_lift fun childConstraints => Lays.more
      ((List.take_sublist _ _).trans (List.drop_sublist _ _)).subperm
      (fold_lays (fun index child rest => ?_) fun _ => ?_)
    · rw [lays_bind]
      exact layout_box_child_lays fun _ => rfl
    · rw [lays_bind]
      exact lays_lift fun _ => same

theorem sized_lays {kind : RenderKind} {script : LayoutScript Size}
    (lays : script.Lays unlaid children fun _ _ => True) :
    (sized kind script).Lays unlaid children fun laid _ => laid.kind = kind := by
  unfold sized
  rw [lays_bind]
  exact lays.mono fun _ _ _ => rfl

/-- A script leaves the fields of the class that layout does not set. -/
theorem layout_lays (kind : RenderKind) (constraints : LayoutConstraints) :
    (performLayout kind constraints children).Lays kind.unlaid children fun laid _ =>
      laid.kind.unlaid = kind.unlaid := by
  have plain : ∀ {script : LayoutScript Size},
      script.Lays kind.unlaid children (fun _ _ => True) →
      (sized kind script).Lays kind.unlaid children fun laid _ => laid.kind.unlaid = kind.unlaid :=
    fun lays => (sized_lays lays).mono fun _ _ same => by rw [same]
  cases constraints with
  | box constraints =>
    cases kind with
    | text | image => exact plain (lays_lift fun _ => trivial)
    | vStack => exact plain v_stack_lays
    | hStack => exact plain h_stack_lays
    | stack => exact plain stack_lays
    | padding insets => exact plain (padding_lays insets)
    | coloredBox | actionBox | semanticsBox | repaintBoundary => exact plain proxy_lays
    | view => exact plain view_lays
    | viewport scrollOffset =>
      exact lays_bind.mpr ((viewport_lays scrollOffset).mono fun _ _ _ => rfl)
    | sliverToBoxAdapter | fixedExtentList => trivial
  | sliver constraints =>
    cases kind with
    | sliverToBoxAdapter => exact lays_bind.mpr (adapter_lays.mono fun _ _ _ => rfl)
    | fixedExtentList list =>
      refine lays_bind.mpr ((list_lays list).mono fun found _ same => ?_)
      exact congrArg RenderKind.fixedExtentList same
    | _ => trivial

theorem script_lays (object : RenderObject) (constraints : LayoutConstraints) :
    (object.script constraints).Lays object.kind.unlaid object.children fun laid _ =>
      laid.kind.unlaid = object.kind.unlaid := by
  unfold RenderObject.script
  rw [lays_bind]
  refine (layout_lays object.kind constraints).mono fun laid _ same => ?_
  cases constraints with
  | box constraints =>
    rw [settleMeasure]
    cases constraints.constrain laid.measure.size with
    | ok size => exact same
    | error failure => trivial
  | sliver constraints =>
    rw [settleMeasure]
    split
    · trivial
    · exact same

end Classes

/-! Current objects. -/

/-- The object measures what its script finds, and has the fields the script leaves. -/
def RenderObject.Current (objects : RenderId → Option RenderObject) (object : RenderObject) :
    Prop :=
  ∃ constraints, object.constraints = some constraints ∧
    (object.script constraints).Settles objects fun laid =>
      laid.measure = object.measure ∧ laid.kind = object.kind

/-- All objects that do not need layout are current. -/
def RenderOwner.Current (owner : RenderOwner) : Prop :=
  ∀ id object, owner.objects id = some object → object.needsLayout = false →
    object.Current owner.objects

/-- The parent of the object, if it has one, needs layout. -/
def RenderOwner.ParentDirty (owner : RenderOwner) (id : RenderId) : Prop :=
  ∀ parent above, ParentOf renderKeys owner.tree id parent →
    owner.objects parent = some above → above.needsLayout = true

/-- The object, or one below it. -/
def Below (tree : RenderId → Option RenderObject) (top id : RenderId) : Prop :=
  Relation.ReflTransGen (ParentOf renderKeys tree) id top

/-- The tree is the same, and so are the objects outside of a region. -/
structure RenderOwner.Kept (start next : RenderOwner) (region : RenderId → Prop) : Prop where
  tree : next.tree = start.tree
  nextId : next.nextId = start.nextId
  root : next.root = start.root
  others : ∀ id, ¬region id → next.objects id = start.objects id

section Keeping
variable {start middle owner next : RenderOwner} {id self child : RenderId}
variable {object : RenderObject} {region wider : RenderId → Prop}

namespace RenderOwner.Kept

theorem refl (owner : RenderOwner) (region : RenderId → Prop) : owner.Kept owner region :=
  ⟨rfl, rfl, rfl, fun _ _ => rfl⟩

theorem trans (first : start.Kept middle region) (second : middle.Kept next region) :
    start.Kept next region :=
  ⟨second.tree.trans first.tree, second.nextId.trans first.nextId, second.root.trans first.root,
    fun id outside => (second.others id outside).trans (first.others id outside)⟩

theorem widen (kept : start.Kept next region) (within : ∀ id, region id → wider id) :
    start.Kept next wider :=
  ⟨kept.tree, kept.nextId, kept.root, fun id outside => kept.others id (mt (within id) outside)⟩

theorem sound (kept : start.Kept next region) (sound : RenderTree.Sound start.tree start.nextId) :
    RenderTree.Sound next.tree next.nextId := by
  rw [kept.tree, kept.nextId]
  exact sound

theorem parent_dirty (kept : start.Kept next region) (dirty : start.ParentDirty id)
    (outside : ∀ parent, ParentOf renderKeys start.tree id parent → ¬region parent) :
    next.ParentDirty id := by
  intro parent above named found
  rw [kept.tree] at named
  rw [kept.others parent (outside parent named)] at found
  exact dirty parent above named found

end RenderOwner.Kept

/-- Objects stay current where those that changed have a parent that needs layout and are
current themselves, if they do not need layout. -/
theorem current_of_changed (current : owner.Current)
    (sound : RenderTree.Sound owner.tree owner.nextId) (tree : next.tree = owner.tree)
    (changed : ∀ id, next.objects id = owner.objects id ∨ next.ParentDirty id ∧
      ∀ object, next.objects id = some object → object.needsLayout = false →
        object.Current next.objects) : next.Current := by
  intro id object found clean
  rcases changed id with same | ⟨_, current⟩
  · rw [same] at found
    obtain ⟨constraints, under, settles⟩ := current id object found clean
    refine ⟨constraints, under, settles.congr (script_lays object constraints) ?_⟩
    intro child listed
    rcases changed child with kept | ⟨dirty, _⟩
    · rw [kept]
    · have named := (sound.linked (tree_of_object found) child).mp listed
      rw [← tree] at named
      have needs := dirty id object named (same.trans found)
      rw [clean] at needs
      cases needs
  · exact current object found clean

/-- A change of what layout sets of an object. -/
theorem modify_kept (f : RenderObject → RenderObject)
    (plain : ∀ object, owner.objects id = some object → (f object).unlaid = object.unlaid) :
    owner.Kept (owner.modify id f) (· = id) := by
  refine ⟨?_, rfl, rfl, fun other different => ?_⟩
  · funext other
    unfold RenderOwner.tree
    rw [modify_objects]
    split
    case isTrue same =>
      subst same
      cases found : owner.objects other with
      | none => rfl
      | some object => exact congrArg some (plain object found)
    case isFalse => rfl
  · rw [modify_objects, if_neg different]

/-- Changing an object whose parent needs layout. -/
theorem modify_current {f : RenderObject → RenderObject} (current : owner.Current)
    (sound : RenderTree.Sound owner.tree owner.nextId)
    (plain : ∀ object, owner.objects id = some object → (f object).unlaid = object.unlaid)
    (dirty : owner.ParentDirty id)
    (settled : ∀ object, owner.objects id = some object → (f object).needsLayout = false →
      (f object).Current (owner.modify id f).objects) : (owner.modify id f).Current := by
  have kept : owner.Kept (owner.modify id f) (· = id) := modify_kept f plain
  refine current_of_changed current sound kept.tree fun other => ?_
  by_cases same : other = id
  · subst same
    refine .inr ⟨kept.parent_dirty dirty fun parent named => (sound.parent_ne named).symm, ?_⟩
    intro after found clean
    rw [modify_objects, if_pos rfl] at found
    obtain ⟨object, there, rfl⟩ := Option.map_eq_some_iff.mp found
    exact settled object there clean
  · exact .inl (kept.others other same)

/-- An object goes on being current while others change that are not its children. -/
theorem current_modify {f : RenderObject → RenderObject} {objects : RenderId → Option RenderObject}
    (current : object.Current objects) (apart : id ∉ object.children)
    (others : ∀ other, other ≠ id → owner.objects other = objects other) :
    object.Current (owner.modify id f).objects := by
  obtain ⟨constraints, under, settles⟩ := current
  refine ⟨constraints, under, settles.congr (script_lays object constraints) ?_⟩
  intro child listed
  have different : child ≠ id := by
    rintro rfl
    exact apart listed
  rw [modify_objects, if_neg different, others child different]

theorem not_own_child (sound : RenderTree.Sound owner.tree owner.nextId)
    (found : owner.objects id = some object) : id ∉ object.children := fun listed =>
  sound.parent_ne ((sound.linked (tree_of_object found) id).mp listed) rfl

/-! Giving a child its offset. -/

theorem place_eq (owner : RenderOwner) (self child : RenderId) (placement : Placement)
    (offset : Offset) :
    (owner.place placement self child offset).objects =
        (owner.modify child fun object => { object with offset }).objects ∧
      (owner.place placement self child offset).nextId = owner.nextId ∧
      (owner.place placement self child offset).root = owner.root := by
  unfold RenderOwner.place
  split
  case isTrue same =>
    obtain ⟨object, found, same⟩ := (Option.any_eq_true _ _).mp same
    have placed : object.offset = offset := of_decide_eq_true same
    refine ⟨?_, rfl, rfl⟩
    funext other
    rw [modify_objects]
    split
    case isTrue here =>
      subst here
      rw [found, ← placed]
      rfl
    case isFalse => rfl
  case isFalse =>
    dsimp only
    split <;> exact ⟨rfl, rfl, rfl⟩

theorem place_kept (placement : Placement) (offset : Offset) :
    owner.Kept (owner.place placement self child offset) (· = child) := by
  have kept : owner.Kept (owner.modify child fun object => { object with offset }) (· = child) :=
    modify_kept _ fun _ _ => rfl
  obtain ⟨objects, nextId, root⟩ := place_eq owner self child placement offset
  refine ⟨?_, nextId, root, fun id outside => ?_⟩
  · refine Eq.trans ?_ kept.tree
    funext id
    unfold RenderOwner.tree
    rw [objects]
  · rw [objects]
    exact kept.others id outside

theorem place_current (current : owner.Current)
    (sound : RenderTree.Sound owner.tree owner.nextId) (dirty : owner.ParentDirty child)
    (placement : Placement) (offset : Offset) :
    (owner.place placement self child offset).Current := by
  have moved : (owner.modify child fun object => { object with offset }).Current := by
    refine modify_current current sound (fun _ _ => rfl) dirty fun object found clean => ?_
    have there : object.Current owner.objects := current child object found clean
    obtain ⟨constraints, under, settles⟩ := current_modify there (not_own_child sound found)
      fun _ _ => rfl
    exact ⟨constraints, under, settles⟩
  unfold RenderOwner.Current at moved ⊢
  rw [(place_eq owner self child placement offset).1]
  exact moved

end Keeping

/-! Laying out an object, and running its script. -/

section Running
variable {start middle owner next : RenderOwner} {id self child : RenderId}
variable {object : RenderObject} {lay : RenderId → LayoutConstraints → Rendering Unit}

/-- What laying out an object does, whether it returns or throws. -/
structure LaidOut (start next : RenderOwner) (id : RenderId) (object : RenderObject)
    (constraints : LayoutConstraints) (outcome : Except Failure Unit) : Prop where
  current : next.Current
  kept : start.Kept next (Below start.tree id)
  offset : ∃ after, next.objects id = some after ∧ after.offset = object.offset ∧
    (outcome = .ok () → after.needsLayout = false ∧ after.constraints = some constraints)

/-- This is how objects are laid out where their parents need layout. -/
def LaysOut (lay : RenderId → LayoutConstraints → Rendering Unit) : Prop :=
  ∀ start outcome next id object constraints, RenderTree.Sound start.tree start.nextId →
    start.Current → start.ParentDirty id → start.objects id = some object →
    lay id constraints start = some (outcome, next) →
    LaidOut start next id object constraints outcome

theorem below_self {tree : RenderId → Option RenderObject} (id : RenderId) : Below tree id id :=
  Relation.ReflTransGen.refl

theorem parent_outside (sound : RenderTree.Sound start.tree start.nextId) {parent : RenderId}
    (named : ParentOf renderKeys start.tree id parent) : ¬Below start.tree id parent :=
  sound.not_above named

/-- Laying out a child and giving it its offset. -/
theorem lay_placed_keeps (lays : LaysOut lay) {placement : Placement} {offset : Offset}
    {constraints : LayoutConstraints} {outcome : Except Failure Unit}
    (sound : RenderTree.Sound start.tree start.nextId) (current : start.Current)
    (dirty : start.ParentDirty child) (found : start.objects child = some object)
    (ran : layPlaced lay placement self child constraints offset start = some (outcome, next)) :
    next.Current ∧ start.Kept next (Below start.tree child) ∧
      (outcome = .ok () → ∃ after, next.objects child = some after ∧ after.needsLayout = false ∧
        after.constraints = some constraints ∧ after.offset = offset) := by
  have placing : ∀ owner : RenderOwner,
      owner.Kept (owner.place placement self child offset) (Below start.tree child) :=
    fun owner => (place_kept placement offset).widen fun id same => by
      rw [same]
      exact below_self child
  have apart : ∀ parent, ParentOf renderKeys start.tree child parent →
      ¬Below start.tree child parent := fun parent named => parent_outside sound named
  unfold layPlaced at ran
  split at ran
  · rw [change_ends_iff] at ran
    have placed := placing start
    have moved : (start.place placement self child offset).objects child =
        some { object with offset } := by
      rw [(place_eq start self child placement offset).1, modify_objects, if_pos rfl, found]
      rfl
    obtain ⟨current, kept, after, there, same, laid⟩ := lays _ outcome next child _ constraints
      (placed.sound sound) (place_current current sound dirty placement offset)
      (placed.parent_dirty dirty apart) moved ran
    rw [placed.tree] at kept
    refine ⟨current, placed.trans kept, fun returned => ?_⟩
    exact ⟨after, there, (laid returned).1, (laid returned).2, same⟩
  · rw [bind_ends_iff] at ran
    rcases ran with ⟨value, middle, laid, ended⟩ | ⟨failure, thrown, rfl⟩
    · obtain ⟨current, kept, after, there, same, clean⟩ :=
        lays start _ middle child object constraints sound current dirty found laid
      cases ended
      refine ⟨place_current current (kept.sound sound) (kept.parent_dirty dirty apart) placement
        offset, kept.trans (placing middle), fun _ => ⟨{ after with offset }, ?_, ?_⟩⟩
      · rw [(place_eq middle self child placement offset).1, modify_objects, if_pos rfl, there]
        rfl
      · exact ⟨(clean rfl).1, (clean rfl).2, rfl⟩
    · obtain ⟨current, kept, _⟩ :=
        lays start _ next child object constraints sound current dirty found thrown
      exact ⟨current, kept, nofun⟩

/-- What running a script leaves, if its object needs layout and so does the parent: the
object may have other fields of its class, and what is below the children that are left has
been laid out. -/
structure Performed {α : Type} (start next : RenderOwner) (self : RenderId)
    (object : RenderObject) (left : List RenderId) (script : LayoutScript α)
    (outcome : Except Failure α) : Prop where
  current : next.Current
  kept : start.Kept next fun id => id = self ∨ ∃ child ∈ left, Below start.tree child id
  own : ∃ kind, kind.unlaid = object.kind.unlaid ∧
    next.objects self = some { object with kind }
  settles : ∀ value, outcome = .ok value → script.Settles next.objects (· = value)

/-- An object that needs layout sets its fields. -/
theorem put_keeps {kind : RenderKind} (sound : RenderTree.Sound start.tree start.nextId)
    (current : start.Current) (dirty : start.ParentDirty self)
    (found : start.objects self = some object) (needs : object.needsLayout = true)
    (fields : kind.unlaid = object.kind.unlaid) :
    start.Kept (start.modify self fun object => { object with kind }) (· = self) ∧
      (start.modify self fun object => { object with kind }).Current ∧
      (start.modify self fun object => { object with kind }).ParentDirty self ∧
      (start.modify self fun object => { object with kind }).objects self =
        some { object with kind } := by
  have plain : ∀ before, start.objects self = some before →
      RenderObject.unlaid { before with kind } = before.unlaid := by
    intro before held
    cases found.symm.trans held
    simp only [RenderObject.unlaid, fields]
  have kept := modify_kept (fun object => { object with kind }) plain
  have apart : ∀ parent, ParentOf renderKeys start.tree self parent → ¬parent = self :=
    fun parent named => (sound.parent_ne named).symm
  refine ⟨kept, ?_, kept.parent_dirty dirty apart, ?_⟩
  · refine modify_current current sound plain dirty fun before held clean => ?_
    cases found.symm.trans held
    rw [show object.needsLayout = true from needs] at clean
    cases clean
  · rw [modify_objects, if_pos rfl, found]
    rfl

theorem perform_keeps (lays : LaysOut lay) {α : Type} {post : α → List RenderId → Prop} :
    ∀ {script : LayoutScript α} {left : List RenderId} {start next : RenderOwner}
      {object : RenderObject} {outcome : Except Failure α},
      RenderTree.Sound start.tree start.nextId → start.Current → start.ParentDirty self →
      start.objects self = some object → object.needsLayout = true →
      script.Lays object.kind.unlaid left post →
      (∀ child ∈ left, ParentOf renderKeys start.tree child self) → left.Nodup →
      script.perform lay self start = some (outcome, next) →
      Performed start next self object left script outcome := by
  intro script
  induction script with
  | done value =>
    intro left start next object outcome sound current dirty found needs lies among distinct ran
    cases ran
    exact ⟨current, .refl _ _, ⟨object.kind, rfl, found⟩, fun _ same => Except.ok.inj same⟩
  | fail failure =>
    intro left start next object outcome sound current dirty found needs lies among distinct ran
    cases ran
    exact ⟨current, .refl _ _, ⟨object.kind, rfl, found⟩, nofun⟩
  | put kind script ih =>
    intro left start next object outcome sound current dirty found needs lies among distinct ran
    rw [LayoutScript.perform, change_ends_iff] at ran
    obtain ⟨kept, current, dirty, moved⟩ := put_keeps sound current dirty found needs lies.1
    obtain ⟨current, later, ⟨kind', same, own⟩, settles⟩ := ih (kept.sound sound) current
      dirty moved needs
      (by rw [lies.1]; exact lies.2)
      (by rw [kept.tree]; exact among) distinct ran
    rw [kept.tree] at later
    refine ⟨current, (kept.widen fun id same => .inl same).trans later, ⟨kind', ?_, own⟩, settles⟩
    exact same.trans lies.1
  | lay placement child constraints offset rest ih =>
    intro left start next object outcome sound current dirty found needs lies among distinct ran
    have named := among child lies.1
    obtain ⟨below, there, _⟩ := parent_of_objects.mpr named
    have open_ : start.ParentDirty child := by
      intro parent above other held
      cases named.unique other
      cases found.symm.trans held
      exact needs
    have outside : ¬Below start.tree child self := parent_outside sound named
    rw [LayoutScript.perform, bind_ends_iff] at ran
    rcases ran with ⟨value, middle, laid, ran⟩ | ⟨failure, thrown, rfl⟩
    · obtain ⟨current, kept, after⟩ := lay_placed_keeps lays sound current open_ there laid
      obtain ⟨after, here, clean, under, at_⟩ := after rfl
      have same : middle.objects self = some object := (kept.others self outside).trans found
      have ran : (rest after.measure).perform lay self middle = some (outcome, next) := by
        rw [bind_ends_iff] at ran
        unfold measureOf at ran
        simp only [read_ends_iff, here] at ran
        rcases ran with ⟨_, _, same, ran⟩ | ⟨_, same, _⟩
        · cases same
          exact ran
        · cases same
      have upward : ∀ parent, ParentOf renderKeys start.tree self parent →
          ¬Below start.tree child parent := fun parent up below => outside (.head up below)
      have apart : ∀ other ∈ left.erase child, ParentOf renderKeys middle.tree other self := by
        intro other listed
        rw [kept.tree]
        exact among other (List.mem_of_mem_erase listed)
      obtain ⟨current, later, own, settles⟩ := ih after.measure (kept.sound sound) current
        (kept.parent_dirty dirty upward) same needs (lies.2 _) apart
        (distinct.erase child) ran
      rw [kept.tree] at later
      have left_alone : next.objects child = some after := by
        refine (later.others child ?_).trans here
        rintro (same | ⟨other, listed, below⟩)
        · exact sound.parent_ne named same
        · obtain ⟨different, listed⟩ := (distinct.mem_erase_iff).mp listed
          exact different (sound.siblings_apart named (among other listed) below).symm
      refine ⟨current, ?_, own, fun value returned => ?_⟩
      · refine (kept.widen fun id below => .inr ⟨child, lies.1, below⟩).trans (later.widen ?_)
        rintro id (same | ⟨other, listed, below⟩)
        · exact .inl same
        · exact .inr ⟨other, List.mem_of_mem_erase listed, below⟩
      · exact ⟨after, left_alone, clean, under, at_, settles value returned⟩
    · obtain ⟨current, kept, _⟩ := lay_placed_keeps lays sound current open_ there thrown
      refine ⟨current, kept.widen fun id below => .inr ⟨child, lies.1, below⟩,
        ⟨object.kind, rfl, (kept.others self outside).trans found⟩, nofun⟩

/-- A script does not depend on what layout has set. -/
theorem perform_unlaid (kind : RenderKind) :
    performLayout kind.unlaid = performLayout kind := by
  funext constraints children
  cases kind with
  | viewport scrollOffset => cases constraints <;> rfl
  | fixedExtentList list => cases constraints <;> rfl
  | _ => rfl

theorem script_kind {kind : RenderKind} (same : kind.unlaid = object.kind.unlaid)
    (constraints : LayoutConstraints) :
    RenderObject.script { object with kind } constraints = object.script constraints := by
  unfold RenderObject.script
  rw [← perform_unlaid kind, same, perform_unlaid]

/-- Setting fields of an object at the end of its layout. -/
theorem laid_out_modify {before : RenderObject} {constraints : LayoutConstraints}
    {outcome : Except Failure Unit} (sound : RenderTree.Sound start.tree start.nextId)
    (dirty : start.ParentDirty id) (within : start.Kept middle (Below start.tree id))
    (current : middle.Current) (own : middle.objects id = some before)
    (f : RenderObject → RenderObject) (plain : (f before).unlaid = before.unlaid)
    (settled : (f before).needsLayout = false → (f before).Current (middle.modify id f).objects)
    (offset : (f before).offset = object.offset)
    (clean : outcome = .ok () →
      (f before).needsLayout = false ∧ (f before).constraints = some constraints)
    (objects : next.objects = (middle.modify id f).objects) (nextId : next.nextId = middle.nextId)
    (root : next.root = middle.root) : LaidOut start next id object constraints outcome := by
  have only : ∀ other, middle.objects id = some other → other = before := fun other held =>
    Option.some.inj (held.symm.trans own)
  have alone : ∀ other, middle.objects id = some other → (f other).unlaid = other.unlaid := by
    intro other held
    rw [only other held]
    exact plain
  have kept := modify_kept f alone
  have tree : next.tree = (middle.modify id f).tree := by
    funext other
    unfold RenderOwner.tree
    rw [objects]
  have all := within.trans (kept.widen fun other same => by
    rw [same]
    exact below_self id)
  refine ⟨?_, ⟨tree.trans all.tree, nextId.trans within.nextId, root.trans within.root, ?_⟩,
    f before, ?_, offset, clean⟩
  · have current := modify_current current (within.sound sound) alone
      (within.parent_dirty dirty fun parent named => parent_outside sound named)
      fun other held clean => by
        rw [only other held] at clean ⊢
        exact settled clean
    unfold RenderOwner.Current at current ⊢
    rw [objects]
    exact current
  · rw [objects]
    exact all.others
  · rw [objects, modify_objects, if_pos rfl, own]
    rfl

/-- Every layout leaves current objects current, by induction on the depth it may reach. -/
theorem layout_keeps (fuel : Nat) : LaysOut (layoutObject fuel) := by
  induction fuel with
  | zero =>
    intro start outcome next id object constraints sound current dirty found ran
    cases ran
  | succ fuel ih =>
    intro start outcome next id object constraints sound current dirty found ran
    have apart : ∀ parent, ParentOf renderKeys start.tree id parent → ¬parent = id :=
      fun parent named => (sound.parent_ne named).symm
    rw [layoutObject, read_ends_iff, found] at ran
    dsimp only at ran
    split at ran
    case isTrue clean =>
      cases ran
      exact ⟨current, .refl _ _, object, found, rfl, fun _ => clean⟩
    case isFalse =>
      rw [change_ends_iff, attempt_ends_iff] at ran
      obtain ⟨caught, middle, ran, ended⟩ := ran
      have unchanged := dirty
      have whole := sound
      have opened : ∀ before, start.objects id = some before →
          RenderObject.unlaid { before with
            constraints := some constraints, needsLayout := true } = before.unlaid :=
        fun _ _ => rfl
      have kept := modify_kept _ opened
      have current := modify_current current sound opened dirty fun _ _ clean => nomatch clean
      have dirty := kept.parent_dirty dirty apart
      have found : (start.modify id fun before => { before with
          constraints := some constraints, needsLayout := true }).objects id =
            some { object with constraints := some constraints, needsLayout := true } := by
        rw [modify_objects, if_pos rfl, found]
        rfl
      have sound := kept.sound sound
      have distinct := sound.distinct (tree_of_object found)
      have among : ∀ child ∈ object.children, ParentOf renderKeys _ child id :=
        fun child listed => (sound.linked (tree_of_object found) child).mp listed
      obtain ⟨current, later, ⟨kind, same, own⟩, settles⟩ := perform_keeps ih sound current dirty
        found rfl (script_lays object constraints) among distinct ran
      have within : start.Kept middle (Below start.tree id) := by
        refine (kept.widen fun other same => by rw [same]; exact below_self id).trans
          (later.widen fun other below => ?_)
        rw [kept.tree] at below
        rcases below with same | ⟨child, listed, below⟩
        · rw [same]
          exact below_self id
        · rw [kept.tree] at among
          exact below.tail (among child listed)
      cases caught with
      | error failure =>
        rw [change_ends_iff] at ended
        cases ended
        exact laid_out_modify whole unchanged within current own
          (fun before => { before with constraints := object.constraints }) rfl nofun rfl nofun
          rfl rfl rfl
      | ok laid =>
        have ran := settles laid rfl
        have fields : laid.kind.unlaid = object.kind.unlaid := by
          obtain ⟨_, _, same, plain⟩ := ran.ends (script_lays object constraints)
          rw [← same]
          exact plain
        have plain : RenderObject.unlaid (RenderObject.settle
            { object with kind, constraints := some constraints, needsLayout := true } laid) =
              RenderObject.unlaid
                { object with kind, constraints := some constraints, needsLayout := true } := by
          simp only [RenderObject.unlaid, RenderObject.settle, fields, same]
        have again : RenderObject.script (RenderObject.settle
            { object with kind, constraints := some constraints, needsLayout := true } laid)
              constraints = object.script constraints := script_kind fields constraints
        have shown : (object.script constraints).Settles
            (middle.modify id fun before => before.settle laid).objects (· = laid) := by
          refine ran.congr (script_lays object constraints) fun child listed => ?_
          have different : child ≠ id := (within.sound whole).parent_ne
            (((within.sound whole).linked (tree_of_object own) child).mp listed)
          rw [modify_objects, if_neg different]
        have left : LaidOut start (middle.modify id fun before => before.settle laid) id object
            constraints (.ok ()) := by
          refine laid_out_modify whole unchanged within current own _ plain
            (fun _ => ⟨constraints, rfl, ?_⟩) rfl (fun _ => ⟨rfl, rfl⟩) rfl rfl rfl
          rw [again]
          refine shown.mono fun other same => ?_
          rw [same]
          exact ⟨rfl, rfl⟩
        cases ended
        dsimp only
        split
        · exact ⟨left.current, ⟨left.kept.tree, left.kept.nextId, left.kept.root,
            left.kept.others⟩, left.offset⟩
        · exact ⟨left.current, ⟨left.kept.tree, left.kept.nextId, left.kept.root,
            left.kept.others⟩, left.offset⟩

end Running

end Dui
