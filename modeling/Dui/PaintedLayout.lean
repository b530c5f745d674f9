import Dui.FixedExtentHitTest

/-! What is painted was laid out by the parent it has now, as long as no object has more
children than its class lays out: a padding or a proxy lays out the first of its children, and
paints all of them. -/
namespace Dui
open Effect ForestEdit LayoutScript Transition

/-- Does the class lay out all of the children? Semantics boxes and sliver adapters do not
adopt more than they lay out. -/
def RenderObject.laysAll (object : RenderObject) : Bool :=
  match object.kind with
  | .text .. | .image .. => object.children.isEmpty
  | .padding _ | .coloredBox _ | .actionBox _ | .repaintBoundary => object.children.length ≤ 1
  | _ => true

/-- The children that the class does not lay out, whatever it measures. -/
def RenderObject.surplus (object : RenderObject) : List RenderId :=
  match object.kind with
  | .text .. | .image .. => object.children
  | .padding _ | .coloredBox _ | .actionBox _ | .repaintBoundary => object.children.tail
  | _ => []

namespace LayoutScript
variable {α β : Type}

/-- The script, going on with what the objects measure, lays out the child under these
constraints and places it at this offset. -/
def Gives (objects : RenderId → Option RenderObject) (child : RenderId)
    (constraints : LayoutConstraints) (offset : Offset) : LayoutScript α → Prop
  | .done _ => False
  | .fail _ => False
  | .put _ next => next.Gives objects child constraints offset
  | .lay _ other given placed next =>
    (other = child ∧ given = constraints ∧ placed = offset) ∨
      ∃ laid, objects other = some laid ∧
        (next laid.measure).Gives objects child constraints offset

/-- The script lays out the child. -/
def Serves (objects : RenderId → Option RenderObject) (child : RenderId)
    (script : LayoutScript α) : Prop :=
  ∃ constraints offset, script.Gives objects child constraints offset

section Giving
variable {objects : RenderId → Option RenderObject} {child : RenderId}
  {constraints : LayoutConstraints} {offset : Offset} {script : LayoutScript α}
  {rest : α → LayoutScript β}

/-- A child is as it was laid out, where scripts leave their children so. -/
theorem settles_gives {post : α → Prop} : ∀ {script : LayoutScript α},
    script.Settles objects post → script.Gives objects child constraints offset →
      ∃ laid, objects child = some laid ∧ laid.needsLayout = false ∧
        laid.constraints = some constraints ∧ laid.offset = offset := by
  intro script
  induction script with
  | done value => exact fun _ gives => gives.elim
  | fail failure => exact fun _ gives => gives.elim
  | put kind next ih => exact fun settles gives => ih settles gives
  | lay placement other given placed next ih =>
    rintro ⟨laid, found, clean, under, at_, settles⟩ (⟨rfl, rfl, rfl⟩ | ⟨again, same, gives⟩)
    · exact ⟨laid, found, clean, under, at_⟩
    · cases found.symm.trans same
      exact ih laid.measure settles gives

/-- Only the given children are laid out. -/
theorem lays_gives {unlaid : RenderKind} {after : α → List RenderId → Prop} :
    ∀ {script : LayoutScript α} {left : List RenderId}, script.Lays unlaid left after →
      script.Gives objects child constraints offset → child ∈ left := by
  intro script
  induction script with
  | done value => exact fun _ gives => gives.elim
  | fail failure => exact fun _ gives => gives.elim
  | put kind next ih => exact fun lays gives => ih lays.2 gives
  | lay placement other given placed next ih =>
    rintro left ⟨listed, lays⟩ (⟨rfl, _, _⟩ | ⟨laid, _, gives⟩)
    · exact listed
    · exact List.mem_of_mem_erase (ih laid.measure (lays _) gives)

theorem gives_first : ∀ {script : LayoutScript α}, script.Gives objects child constraints offset →
    (script >>= rest).Gives objects child constraints offset := by
  intro script
  induction script with
  | done value => exact fun gives => gives.elim
  | fail failure => exact fun gives => gives.elim
  | put kind next ih => exact fun gives => ih gives
  | lay placement other given placed next ih =>
    rintro (here | ⟨laid, found, gives⟩)
    · exact .inl here
    · exact .inr ⟨laid, found, ih laid.measure gives⟩

theorem Serves.first (serves : script.Serves objects child) :
    (script >>= rest).Serves objects child := by
  obtain ⟨constraints, offset, gives⟩ := serves
  exact ⟨constraints, offset, gives_first gives⟩

/-- What comes after a script lays out a child. -/
theorem Settles.serves : ∀ {script : LayoutScript α},
    (script.Settles objects fun value => (rest value).Serves objects child) →
      (script >>= rest).Serves objects child := by
  intro script
  induction script with
  | done value => exact id
  | fail failure => exact fun settles => settles.elim
  | put kind next ih => exact fun settles => ih settles
  | lay placement other given placed next ih =>
    rintro ⟨laid, found, _, _, _, settles⟩
    obtain ⟨constraints, offset, gives⟩ := ih laid.measure settles
    exact ⟨constraints, offset, .inr ⟨laid, found, gives⟩⟩

theorem serves_last {post : β → Prop} (settles : (script >>= rest).Settles objects post)
    (serves : ∀ value, (rest value).Settles objects post → (rest value).Serves objects child) :
    (script >>= rest).Serves objects child :=
  Settles.serves ((settles_bind.mp settles).mono serves)

/-- Going through children, each of which is laid out when it is come to. -/
theorem serves_fold {body : α → RenderId → LayoutScript α}
    (each : ∀ value child {post : α → Prop}, (body value child).Settles objects post →
      (body value child).Serves objects child) (children : List RenderId) :
    ∀ value {post : α → Prop}, (children.foldlM body value).Settles objects post →
      ∀ child ∈ children, (children.foldlM body value).Serves objects child := by
  induction children with
  | nil =>
    intro value post _ child listed
    cases listed
  | cons first rest ih =>
    intro value post settles child listed
    rw [List.foldlM_cons] at settles ⊢
    rcases List.mem_cons.mp listed with rfl | listed
    · exact (each value child (settles_bind.mp settles)).first
    · exact serves_last settles fun value settles => ih value settles child listed

end Giving

end LayoutScript

/-! The classes lay out what they paint. -/

section Classes
variable {objects : RenderId → Option RenderObject} {child : RenderId} {children : List RenderId}
  {constraints : BoxConstraints}

theorem layout_child_serves {offset : Offset} :
    (layoutChild child constraints offset).Serves objects child :=
  ⟨_, _, .inl ⟨rfl, rfl, rfl⟩⟩

theorem layout_box_child_serves {offset : Offset} :
    (layoutBoxChild child constraints offset).Serves objects child :=
  ⟨_, _, .inl ⟨rfl, rfl, rfl⟩⟩

theorem layout_sliver_serves {constraints : SliverConstraints} {offset : Offset} :
    (layoutSliver child constraints offset).Serves objects child :=
  ⟨_, _, .inl ⟨rfl, rfl, rfl⟩⟩

/-- A script begins with going through all children of a list. -/
theorem fold_serves {α β : Type} {body : α → RenderId → LayoutScript α} {value : α}
    {rest : α → LayoutScript β} {post : β → Prop}
    (settles : (children.foldlM body value >>= rest).Settles objects post)
    (each : ∀ value child {post : α → Prop}, (body value child).Settles objects post →
      (body value child).Serves objects child) (listed : child ∈ children) :
    (children.foldlM body value >>= rest).Serves objects child :=
  (serves_fold each children value (settles_bind.mp settles) child listed).first

section Boxes
variable {post : Size → Prop}

theorem v_stack_serves (settles : (performVStack constraints children).Settles objects post)
    (listed : child ∈ children) : (performVStack constraints children).Serves objects child := by
  unfold performVStack at settles ⊢
  exact serves_last settles fun _ settles =>
    fold_serves settles (fun _ _ _ _ => layout_child_serves.first) listed

theorem h_stack_serves (settles : (performHStack constraints children).Settles objects post)
    (listed : child ∈ children) : (performHStack constraints children).Serves objects child := by
  unfold performHStack at settles ⊢
  exact serves_last settles fun _ settles =>
    fold_serves settles (fun _ _ _ _ => layout_child_serves.first) listed

theorem stack_serves (settles : (performStack constraints children).Settles objects post)
    (listed : child ∈ children) : (performStack constraints children).Serves objects child :=
  fold_serves settles (fun _ _ _ _ => layout_child_serves.first) listed

theorem view_serves (settles : (performView constraints children).Settles objects post)
    (listed : child ∈ children) : (performView constraints children).Serves objects child := by
  unfold performView at settles ⊢
  split at settles
  · exact settles.elim
  · exact serves_last settles fun _ settles =>
      fold_serves settles (fun _ _ _ _ => layout_child_serves) listed

theorem padding_serves {insets : Insets} {rest : List RenderId}
    (settles : (performPadding insets constraints (child :: rest)).Settles objects post) :
    (performPadding insets constraints (child :: rest)).Serves objects child := by
  rw [performPadding] at settles ⊢
  exact serves_last settles fun _ _ => layout_child_serves.first

theorem proxy_serves {rest : List RenderId} :
    (performProxy constraints (child :: rest)).Serves objects child := by
  rw [performProxy]
  exact layout_child_serves.first

end Boxes

theorem viewport_serves {scrollOffset : ℚ} {post : Size × ℚ → Prop}
    (settles : (performViewport scrollOffset constraints children).Settles objects post)
    (listed : child ∈ children) :
    (performViewport scrollOffset constraints children).Serves objects child := by
  unfold performViewport at settles ⊢
  split at settles
  · exact settles.elim
  · exact fold_serves settles
      (fun _ _ _ settles => serves_last settles fun _ _ => layout_sliver_serves.first) listed

theorem adapter_serves {constraints : SliverConstraints} {rest : List RenderId} :
    (performSliverToBoxAdapter constraints (child :: rest)).Serves objects child := by
  rw [performSliverToBoxAdapter]
  exact layout_box_child_serves.first

/-- A list lays out the visible ones of its children, and has none where it asks for others. -/
theorem list_serves {list : FixedExtentList} {constraints : SliverConstraints}
    {post : SliverGeometry × FixedExtentList → Prop}
    (settles : (performFixedExtentList list constraints children).Settles objects post)
    (listed : child ∈ (children.drop (list.updateRanges children.length
      constraints).firstVisibleChild).take (list.updateRanges children.length
        constraints).visibleChildCount) :
    (performFixedExtentList list constraints children).Serves objects child := by
  unfold performFixedExtentList at settles ⊢
  dsimp only [Settles, Serves, Gives] at settles ⊢
  split
  · rename_i requests
    rw [FixedExtentList.updateRanges, if_pos requests] at listed
    cases listed
  · rename_i mounted
    rw [if_neg mounted] at settles
    exact serves_last settles fun _ settles =>
      fold_serves settles (fun _ _ _ _ => layout_box_child_serves.first) listed

theorem first_child (listed : child ∈ children) (served : child ∉ children.tail) :
    ∃ rest, children = child :: rest := by
  cases children with
  | nil => cases listed
  | cons first rest =>
    rcases List.mem_cons.mp listed with rfl | listed
    · exact ⟨rest, rfl⟩
    · exact absurd listed served

theorem no_tail (count : children.length ≤ 1) : children.tail = [] := by
  rw [← List.length_eq_zero_iff, List.length_tail]
  exact Nat.sub_eq_zero_of_le count

theorem only_child (count : children.length ≤ 1) (listed : child ∈ children) :
    ∃ rest, children = child :: rest :=
  first_child listed (no_tail count ▸ List.not_mem_nil)

/-- A class that lays out all of the children leaves none out. -/
theorem not_surplus {object : RenderObject} (all : object.laysAll = true) :
    child ∉ object.surplus := by
  obtain ⟨id, parent, children, kind, needsLayout, given, measure, offset⟩ := object
  cases kind with
  | text | image =>
    obtain rfl := List.isEmpty_iff.mp all
    exact List.not_mem_nil
  | padding | coloredBox | actionBox | repaintBoundary =>
    have none : children.tail = [] := no_tail (of_decide_eq_true all)
    unfold RenderObject.surplus
    dsimp only
    rw [none]
    exact List.not_mem_nil
  | _ => exact List.not_mem_nil

theorem at_most_one {count : Nat} {failure : Failure}
    (counted : (if count > 1 then throw failure else pure () : Except Failure Unit) = .ok ()) :
    count ≤ 1 := by
  split at counted
  · cases counted
  · exact not_lt.mp ‹_›

/-- A current object lays out each child that it paints, unless its class leaves it out. -/
theorem serves_of_painted {object : RenderObject} (current : object.Current objects)
    (counted : object.kind.validateChildCount object.children.length = .ok ())
    (served : child ∉ object.surplus) (painted : child ∈ object.paintChildren) :
    ∃ constraints, object.constraints = some constraints ∧
      (object.script constraints).Serves objects child := by
  have listed : child ∈ object.children := List.mem_of_mem_take (List.mem_of_mem_drop painted)
  have ranged : ∀ list, object.kind = .fixedExtentList list → ∃ constraints,
      object.constraints = some (.sliver constraints) ∧
        list.updateRanges object.children.length constraints = list := by
    intro list kind
    obtain ⟨constraints, under, ranged, _⟩ := list_settled current kind
    exact ⟨constraints, under, ranged⟩
  obtain ⟨constraints, under, settles⟩ := current
  refine ⟨constraints, under, ?_⟩
  unfold RenderObject.script at settles ⊢
  refine Serves.first ?_
  have settles := settles_bind.mp settles
  obtain ⟨id, parent, children, kind, needsLayout, given, measure, offset⟩ := object
  cases constraints with
  | box constraints =>
    cases kind with
    | text | image => exact absurd listed served
    | vStack => exact (v_stack_serves (settles_bind.mp settles) listed).first
    | hStack => exact (h_stack_serves (settles_bind.mp settles) listed).first
    | stack => exact (stack_serves (settles_bind.mp settles) listed).first
    | view => exact (view_serves (settles_bind.mp settles) listed).first
    | viewport => exact (viewport_serves (settles_bind.mp settles) listed).first
    | padding insets =>
      obtain ⟨rest, rfl⟩ := first_child listed served
      exact (padding_serves (settles_bind.mp settles)).first
    | coloredBox | actionBox | repaintBoundary =>
      obtain ⟨rest, rfl⟩ := first_child listed served
      exact proxy_serves.first
    | semanticsBox properties onActivate =>
      obtain ⟨rest, rfl⟩ := only_child (at_most_one counted) listed
      exact proxy_serves.first
    | sliverToBoxAdapter | fixedExtentList => exact settles.elim
  | sliver constraints =>
    cases kind with
    | sliverToBoxAdapter =>
      obtain ⟨rest, rfl⟩ := only_child (at_most_one counted) listed
      exact adapter_serves.first
    | fixedExtentList list =>
      obtain ⟨found, same, ranged⟩ := ranged list rfl
      cases under.symm.trans same
      refine (list_serves (settles_bind.mp settles) ?_).first
      rw [ranged]
      simpa only [RenderObject.paintChildren, RenderObject.paintChildRange,
        FixedExtentList.paintChildRange, List.drop_take, Nat.add_sub_cancel_left] using painted
    | _ => exact settles.elim

/-- A class that does not lay out all of the children goes by some of them. -/
theorem script_of_overfull {object : RenderObject} (overfull : object.laysAll = false)
    (distinct : object.children.Nodup) : ∃ child ∈ object.paintChildren, ∃ fewer,
      child ∉ fewer ∧ ∀ constraints, object.script constraints =
        RenderObject.script { object with children := fewer } constraints := by
  obtain ⟨id, parent, children, kind, needsLayout, given, measure, offset⟩ := object
  have none : ∀ {children : List RenderId}, children.isEmpty = false →
      ∃ first rest, children = first :: rest := by
    intro children filled
    cases children with
    | nil => cases filled
    | cons first rest => exact ⟨first, rest, rfl⟩
  have one : ∀ {children : List RenderId}, decide (children.length ≤ 1) = false →
      ∃ first second rest, children = first :: second :: rest := by
    intro children filled
    match children, filled with
    | first :: second :: rest, _ => exact ⟨first, second, rest, rfl⟩
  have apart : ∀ {first second : RenderId} {rest : List RenderId},
      (first :: second :: rest).Nodup → second ∉ [first] := by
    intro first second rest distinct listed
    rw [List.mem_singleton.mp listed] at distinct
    exact (List.nodup_cons.mp distinct).1 List.mem_cons_self
  cases kind with
  | text | image =>
    obtain ⟨first, rest, rfl⟩ := none overfull
    refine ⟨first, ?_, [], List.not_mem_nil, fun constraints => by cases constraints <;> rfl⟩
    simp [RenderObject.paintChildren, RenderObject.paintChildRange]
  | padding | coloredBox | actionBox | repaintBoundary =>
    obtain ⟨first, second, rest, rfl⟩ := one overfull
    refine ⟨second, ?_, [first], apart distinct, fun constraints => by cases constraints <;> rfl⟩
    simp [RenderObject.paintChildren, RenderObject.paintChildRange]
  | _ => cases overfull

end Classes

/-! Whole trees. -/

/-- The object is as it was laid out last: by the owner, if it is the root, and by its parent
if not, whose script gives it the constraints and the offset that it has. -/
def RenderOwner.LaidByParent (owner : RenderOwner) (viewport : BoxConstraints) (id : RenderId) :
    Prop :=
  ∃ object, owner.objects id = some object ∧ object.needsLayout = false ∧
    (id = owner.root ∧ object.constraints = some (.box viewport) ∨
      ∃ parent above constraints given, object.parent = some parent ∧
        owner.objects parent = some above ∧ above.constraints = some constraints ∧
        object.constraints = some given ∧
        (above.script constraints).Gives owner.objects id given object.offset)

section Trees
variable {owner next : RenderOwner} {viewport : BoxConstraints} {id : RenderId}

theorem painted_below (sound : RenderTree.Sound owner.tree owner.nextId)
    (painted : owner.Painted id) : Below owner.tree owner.root id := by
  induction painted with
  | root => exact below_self _
  | child _ found listed ih =>
    have listed := List.mem_of_mem_take (List.mem_of_mem_drop listed)
    exact .head ((sound.linked (tree_of_object found) _).mp listed) ih

/-- What a layout that returns leaves. -/
theorem layout_ends (orderly : owner.Orderly)
    (laid : layoutRender viewport owner = some (.ok (), next)) :
    next.Orderly ∧ next.tree = owner.tree ∧ next.nextId = owner.nextId ∧ next.root = owner.root ∧
      ∃ view, next.objects next.root = some view ∧ view.needsLayout = false ∧
        view.constraints = some (.box viewport) := by
  have after := layout_orderly viewport owner _ next orderly laid
  obtain ⟨sound, ⟨view, rooted, -, -⟩, above, current⟩ := orderly
  rw [layoutRender, Run.read_ends_iff, Run.bind_ends_iff] at laid
  rcases laid with ⟨value, mid, laid, ended⟩ | ⟨failure, _, thrown⟩
  · have out := layout_keeps owner.nextId owner _ mid owner.root view (.box viewport) sound
      current above rooted laid
    obtain ⟨view, there, _, clean⟩ := out.offset
    cases ended
    exact ⟨after, out.kept.tree, out.kept.nextId, out.kept.root, view,
      (congrArg _ out.kept.root).trans there, clean rfl⟩
  · cases thrown

/-- Layout leaves what decides whether a class lays out all of its children. -/
theorem lays_all_of_tree (tree : next.tree = owner.tree) {object : RenderObject}
    (found : next.objects id = some object) : ∃ before, owner.objects id = some before ∧
      before.laysAll = object.laysAll := by
  have unlaid : ∀ object : RenderObject, object.unlaid.laysAll = object.laysAll := by
    rintro ⟨id, parent, children, kind, needsLayout, given, measure, offset⟩
    cases kind <;> rfl
  have held := tree_of_object found
  rw [tree] at held
  obtain ⟨before, there, same⟩ := object_of_tree held
  exact ⟨before, there, by rw [← unlaid before, same, unlaid]⟩

/-- A child that a current object lays out was laid out by it. -/
theorem laid_of_serves (sound : RenderTree.Sound owner.tree owner.nextId) (current : owner.Current)
    {parent : RenderId} {above : RenderObject} {constraints : LayoutConstraints}
    (found : owner.objects parent = some above) (clean : above.needsLayout = false)
    (listed : id ∈ above.children) (under : above.constraints = some constraints)
    (serves : (above.script constraints).Serves owner.objects id) :
    owner.LaidByParent viewport id := by
  obtain ⟨same, again, settles⟩ := current parent above found clean
  cases under.symm.trans again
  obtain ⟨given, offset, gives⟩ := serves
  obtain ⟨laid, there, clean, given_, placed⟩ := settles_gives settles gives
  obtain ⟨object, here, named⟩ :=
    parent_of_objects.mpr ((sound.linked (tree_of_object found) id).mp listed)
  cases there.symm.trans here
  subst placed
  exact ⟨laid, there, clean, .inr ⟨parent, above, constraints, given, named, found, under,
    given_, gives⟩⟩

/-- Everything painted was laid out by its parent, in every run and after every layout that
returns, if no object of the tree has more children than its class lays out; and wherever one
that has more is painted, it paints a child that it did not lay out. -/
theorem painted_laid_out (reached : Reachable renderMachine owner)
    (laid : layoutRender viewport owner = some (.ok (), next)) :
    ((∀ id object, Below owner.tree owner.root id → owner.objects id = some object →
        object.laysAll = true) → ∀ id, next.Painted id → next.LaidByParent viewport id) ∧
      ∀ id object, next.Painted id → next.objects id = some object → object.laysAll = false →
        ∃ child, next.Painted child ∧ ¬next.LaidByParent viewport child := by
  obtain ⟨orderly, tree, -, root, view, rooted, clean, under⟩ :=
    layout_ends (orderly_reached reached) laid
  obtain ⟨sound, _, _, current⟩ := orderly
  constructor
  · intro all id painted
    induction painted with
    | root => exact ⟨view, rooted, clean, .inl ⟨rfl, under⟩⟩
    | child painted found listed ih =>
      obtain ⟨object, again, clean, _⟩ := ih
      cases found.symm.trans again
      have below := painted_below sound painted
      rw [tree, root] at below
      obtain ⟨before, there, same⟩ := lays_all_of_tree tree found
      have lays := (all _ before below there).symm.trans same
      have counted := sound.counted (tree_of_object found)
      rw [unlaid_kind, RenderKind.unlaid_count, unlaid_children] at counted
      obtain ⟨constraints, given, serves⟩ :=
        serves_of_painted (current _ _ found clean) counted (not_surplus lays.symm) listed
      exact laid_of_serves sound current found clean
        (List.mem_of_mem_take (List.mem_of_mem_drop listed)) given serves
  · intro id object painted found overfull
    have distinct := sound.distinct (tree_of_object found)
    rw [unlaid_children] at distinct
    obtain ⟨child, listed, fewer, apart, same⟩ := script_of_overfull overfull distinct
    refine ⟨child, .child painted found listed, ?_⟩
    have among := List.mem_of_mem_take (List.mem_of_mem_drop listed)
    have named := (sound.linked (tree_of_object found) child).mp among
    rintro ⟨below, there, _, ⟨rooted, _⟩ |
      ⟨parent, above, constraints, given, up, held, _, _, gives⟩⟩
    · -- nothing painted is above the root
      have under := painted_below sound painted
      rw [rooted] at named
      exact sound.not_above named under
    · have up : ParentOf renderKeys next.tree child parent :=
        parent_of_objects.mp ⟨below, there, up⟩
      cases named.unique up
      cases found.symm.trans held
      rw [same] at gives
      exact apart (lays_gives (script_lays _ constraints) gives)

/-- A window of twenty by fifteen. -/
def window : BoxConstraints :=
  { maxWidth := (20 : ℚ), maxHeight := (15 : ℚ), valid := by decide +kernel }

/-- The tree is made again from a padding over a fragment of these texts. -/
def padTexts (texts : List RenderId) : RenderAction :=
  .synchronize (some (.element (some 2)
    [.element none (texts.map fun text => .element (some text) [])]))

/-- A padding over a fragment of new texts. -/
def paddedTexts (texts : List RenderId) : List RenderAction :=
  .construct (.padding ⟨1, 1, 1, 1⟩) :: texts.map (fun _ => .construct (.text "a" false)) ++
    [padTexts texts]

theorem padded_text_laid : ∃ owner next, Reachable renderMachine owner ∧
    layoutRender window owner = some (.ok (), next) ∧ next.Painted 3 ∧
      ∀ id object, owner.objects id = some object → object.laysAll = true := by
  obtain ⟨owner, ran, computed⟩ : ∃ owner,
      renderMachine.run RenderOwner.initially (paddedTexts [3]) = some owner ∧
        ((layoutRender window owner).bind fun (outcome, next) =>
          (next.objects next.root).bind fun view => (next.objects 2).map fun padding =>
            (outcome.toOption, decide (2 ∈ view.paintChildren), decide (3 ∈ padding.paintChildren),
              decide (owner.nextId = 4 ∧
                ∀ id ∈ List.range 4, (owner.objects id).all RenderObject.laysAll))) =
          some (some (), true, true, true) :=
    Option.bind_eq_some_iff.mp (by decide +kernel)
  have reached : Reachable renderMachine owner := Reachable.run (.start rfl) ran
  obtain ⟨⟨outcome, next⟩, laid, computed⟩ := Option.bind_eq_some_iff.mp computed
  obtain ⟨view, rooted, computed⟩ := Option.bind_eq_some_iff.mp computed
  obtain ⟨padding, found, computed⟩ := Option.map_eq_some_iff.mp computed
  simp only [Prod.mk.injEq, decide_eq_true_eq] at computed
  obtain ⟨returned, first, second, issued, all⟩ := computed
  cases outcome with
  | error failure => cases returned
  | ok value =>
    refine ⟨owner, next, reached, laid, .child (.child .root rooted first) found second,
      fun id object there => ?_⟩
    have known := ((orderly_reached reached).sound.issued id
      ((congrArg Option.isSome (tree_of_object there)).trans rfl)).2
    have lays := all id (List.mem_range.mpr (issued ▸ known))
    rwa [there] at lays

theorem painted_text : ∃ owner next, Reachable renderMachine owner ∧
    layoutRender window owner = some (.ok (), next) ∧ next.Painted 3 ∧
      next.LaidByParent window 3 := by
  obtain ⟨owner, next, reached, laid, painted, all⟩ := padded_text_laid
  exact ⟨owner, next, reached, laid, painted,
    (painted_laid_out reached laid).1 (fun id object _ => all id object) 3 painted⟩

/-- A padding lays out the first of two texts, and paints both. -/
theorem second_text_unlaid : ¬∀ (owner next : RenderOwner) (viewport : BoxConstraints),
    Reachable renderMachine owner → layoutRender viewport owner = some (.ok (), next) →
      ∀ id, next.Painted id → next.LaidByParent viewport id := by
  intro always
  obtain ⟨owner, ran, computed⟩ : ∃ owner,
      renderMachine.run RenderOwner.initially (paddedTexts [3, 4]) = some owner ∧
        ((layoutRender window owner).bind fun (outcome, next) =>
          (next.objects next.root).bind fun view => (next.objects 2).map fun padding =>
            (outcome.toOption, decide (2 ∈ view.paintChildren), decide (4 ∈ padding.paintChildren),
              (next.objects 4).map (·.needsLayout))) =
          some (some (), true, true, some true) :=
    Option.bind_eq_some_iff.mp (by decide +kernel)
  have reached : Reachable renderMachine owner := Reachable.run (.start rfl) ran
  obtain ⟨⟨outcome, next⟩, laid, computed⟩ := Option.bind_eq_some_iff.mp computed
  obtain ⟨view, rooted, computed⟩ := Option.bind_eq_some_iff.mp computed
  obtain ⟨padding, found, computed⟩ := Option.map_eq_some_iff.mp computed
  simp only [Prod.mk.injEq, decide_eq_true_eq] at computed
  obtain ⟨returned, first, second, dirty⟩ := computed
  cases outcome with
  | error failure => cases returned
  | ok value =>
    obtain ⟨text, there, clean, _⟩ := always owner next window reached laid 4
      (.child (.child .root rooted first) found second)
    rw [there] at dirty
    cases clean.symm.trans (Option.some.inj dirty)

end Trees

end Dui
