import Dui.PaintedLayout
import Dui.LayerComposing

/-! What is laid out fits: a box has a size that its constraints allow, and a sliver paints no
more than is left for it. So all that is painted after a layout can be. -/
namespace Dui
open Effect ForestEdit LayoutScript Transition

section Constraining
variable {constraints : BoxConstraints} {size result : Size}

theorem clamp_within {value low : ℚ} {high : Extent} (ordered : (low : Extent) ≤ high) :
    low ≤ clamp value low high ∧ (clamp value low high : Extent) ≤ high := by
  unfold clamp
  by_cases less : value < low
  · rw [if_pos less]
    exact ⟨le_rfl, ordered⟩
  · rw [if_neg less]
    have least := not_lt.mp less
    cases high with
    | none => exact ⟨least, le_top⟩
    | some high =>
      change low ≤ (if high < value then high else value) ∧
        ((if high < value then high else value : ℚ) : Extent) ≤ high
      by_cases more : high < value
      · rw [if_pos more]
        exact ⟨WithTop.coe_le_coe.mp ordered, le_rfl⟩
      · rw [if_neg more]
        exact ⟨least, WithTop.coe_le_coe.mpr (not_lt.mp more)⟩

/-- The constraints allow the size. -/
def BoxConstraints.Allows (constraints : BoxConstraints) (size : Size) : Prop :=
  (constraints.minWidth ≤ size.width ∧ (size.width : Extent) ≤ constraints.maxWidth) ∧
    constraints.minHeight ≤ size.height ∧ (size.height : Extent) ≤ constraints.maxHeight

theorem constrain_allows (constrained : constraints.constrain size = .ok result) :
    constraints.Allows result := by
  obtain ⟨_, _, width, height⟩ := constraints.valid
  unfold BoxConstraints.constrain at constrained
  split at constrained
  · cases constrained
  · cases constrained
    exact ⟨clamp_within width, clamp_within height⟩

end Constraining

/-- What the object measures is allowed by the constraints it was laid out under. -/
def RenderObject.Fits (object : RenderObject) : Prop :=
  match object.constraints with
  | none => False
  | some (.box constraints) => constraints.Allows object.measure.size
  | some (.sliver constraints) => object.measure.size = {} ∧
    object.measure.geometry.paintExtent ≤ constraints.remainingPaintExtent

section Measuring
variable {objects : RenderId → Option RenderObject} {object : RenderObject}

theorem settles_value {α : Type} {post : α → Prop} : ∀ {script : LayoutScript α},
    script.Settles objects post → ∃ value, post value := by
  intro script
  induction script with
  | done value => exact fun settles => ⟨value, settles⟩
  | fail failure => exact fun settles => settles.elim
  | put kind next ih => exact fun settles => ih settles
  | lay placement child constraints offset next ih =>
    rintro ⟨laid, _, _, _, _, settles⟩
    exact ih laid.measure settles

/-- A sliver has no size. -/
theorem sliver_unsized {kind : RenderKind} {constraints : SliverConstraints}
    {children : List RenderId} {post : Laid → Prop}
    (settles : (performLayout kind (.sliver constraints) children).Settles objects post) :
    (performLayout kind (.sliver constraints) children).Settles objects
      fun laid => post laid ∧ laid.measure.size = {} := by
  cases kind with
  | sliverToBoxAdapter =>
    exact settles_bind.mpr ((settles_bind.mp settles).mono fun geometry held => ⟨held, rfl⟩)
  | fixedExtentList list =>
    exact settles_bind.mpr ((settles_bind.mp settles).mono fun ended held => ⟨held, rfl⟩)
  | _ => exact settles.elim

/-- What is current fits. -/
theorem current_fits (current : object.Current objects) : object.Fits := by
  obtain ⟨constraints, under, settles⟩ := current
  unfold RenderObject.script at settles
  rw [settles_bind] at settles
  unfold RenderObject.Fits
  rw [under]
  cases constraints with
  | box constraints =>
    obtain ⟨laid, held⟩ := settles_value settles
    obtain ⟨final, settled, same, _⟩ := settles_lift.mp held
    obtain ⟨size, constrained, settled⟩ := bind_ok_iff.mp settled
    cases settled
    rw [← same]
    exact constrain_allows constrained
  | sliver constraints =>
    obtain ⟨laid, held, unsized⟩ := settles_value (sliver_unsized settles)
    obtain ⟨final, settled, same, _⟩ := settles_lift.mp held
    unfold settleMeasure at settled
    dsimp only at settled
    split at settled
    case isTrue => cases settled
    case isFalse enough =>
      cases settled
      rw [← same]
      exact ⟨unsized, not_lt.mp enough⟩

theorem fits_sized (fits : object.Fits) :
    0 ≤ object.measure.size.width ∧ 0 ≤ object.measure.size.height := by
  unfold RenderObject.Fits at fits
  cases under : object.constraints with
  | none =>
    rw [under] at fits
    exact fits.elim
  | some constraints =>
    rw [under] at fits
    cases constraints with
    | box constraints =>
      obtain ⟨width, height, _⟩ := constraints.valid
      exact ⟨width.trans fits.1.1, height.trans fits.2.1⟩
    | sliver constraints =>
      rw [fits.1]
      exact ⟨le_rfl, le_rfl⟩

/-- What is no list can be painted if its size is not negative. -/
theorem plain_paintable (plain : ∀ list, object.kind ≠ .fixedExtentList list)
    (sized : 0 ≤ object.measure.size.width ∧ 0 ≤ object.measure.size.height) :
    object.Paintable := by
  obtain ⟨id, parent, children, kind, needsLayout, constraints, measure, offset⟩ := object
  cases kind with
  | fixedExtentList list => exact absurd rfl (plain list)
  | sliverToBoxAdapter =>
    refine ⟨rfl, ?_, ?_, sized⟩
    · unfold RenderObject.paintChildRange
      dsimp only
      split <;> exact Nat.zero_le _
    · unfold RenderObject.paintChildRange
      dsimp only
      split
      · exact le_rfl
      · exact Nat.zero_le _
  | _ => exact ⟨rfl, Nat.zero_le _, le_rfl, sized⟩

/-- What is current can be painted. -/
theorem current_paintable (current : object.Current objects) : object.Paintable := by
  have sized := fits_sized (current_fits current)
  by_cases listed : ∃ list, object.kind = .fixedExtentList list
  · obtain ⟨list, kind⟩ := listed
    obtain ⟨given, under, ranged, _⟩ := list_settled current kind
    obtain ⟨id, parent, children, _, needsLayout, constraints, measure, offset⟩ := object
    obtain rfl : _ = RenderKind.fixedExtentList list := kind
    obtain rfl : constraints = some (.sliver given) := under
    have valid := list.paint_child_range_valid children.length given
    rw [ranged] at valid
    refine ⟨?_, valid.1, valid.2, sized⟩
    unfold RenderObject.ranged
    dsimp only at ranged ⊢
    rw [ranged]
  · exact plain_paintable (not_exists.mp listed) sized

end Measuring

section Owners
variable {owner next : RenderOwner} {viewport : BoxConstraints} {id : RenderId}
  {object : RenderObject}

/-- Layout leaves what decides which children a class leaves out. -/
theorem surplus_of_tree (tree : next.tree = owner.tree) (found : next.objects id = some object) :
    ∃ before, owner.objects id = some before ∧ before.surplus = object.surplus := by
  have unlaid : ∀ object : RenderObject, object.unlaid.surplus = object.surplus := by
    rintro ⟨id, parent, children, kind, needsLayout, given, measure, offset⟩
    cases kind <;> rfl
  have held := tree_of_object found
  rw [tree] at held
  obtain ⟨before, there, same⟩ := object_of_tree held
  exact ⟨before, there, by rw [← unlaid before, same, unlaid]⟩

/-- What is painted after a layout that returns has been laid out, where no class leaves out
the child in which it is. -/
theorem painted_clean (orderly : owner.Orderly)
    (laid : layoutRender viewport owner = some (.ok (), next)) (painted : next.Painted id)
    (served : ∀ parent above child, Below owner.tree owner.root parent →
      owner.objects parent = some above → child ∈ above.surplus → ¬Below owner.tree child id) :
    ∃ object, next.objects id = some object ∧ object.needsLayout = false := by
  obtain ⟨after, tree, -, root, view, rooted, clean, -⟩ := layout_ends orderly laid
  induction painted with
  | root => exact ⟨view, rooted, clean⟩
  | @child id child object painted found listed ih =>
    have among := List.mem_of_mem_take (List.mem_of_mem_drop listed)
    have named := (after.sound.linked (tree_of_object found) child).mp among
    have upward : ∀ {top}, Below owner.tree top id → Below owner.tree top child := by
      rw [tree] at named
      exact fun below => .head named below
    obtain ⟨_, again, clean⟩ := ih fun parent above left below held listed under =>
      served parent above left below held listed (upward under)
    cases found.symm.trans again
    have below := painted_below after.sound painted
    rw [tree, root] at below
    obtain ⟨before, there, same⟩ := surplus_of_tree tree found
    have inside : child ∉ object.surplus := by
      intro left
      rw [← same] at left
      exact served id before child below there left (below_self child)
    have counted := after.sound.counted (tree_of_object found)
    rw [unlaid_kind, RenderKind.unlaid_count, unlaid_children] at counted
    obtain ⟨constraints, given, serves⟩ :=
      serves_of_painted (after.current _ _ found clean) counted inside listed
    have laid : next.LaidByParent viewport child :=
      laid_of_serves after.sound after.current found clean among given serves
    obtain ⟨below, here, clean, _⟩ := laid
    exact ⟨below, here, clean⟩

/-- Where objects lay out all their children, everything painted has been laid out. -/
theorem painted_all_clean (orderly : owner.Orderly)
    (laid : layoutRender viewport owner = some (.ok (), next))
    (all : ∀ id object, Below owner.tree owner.root id → owner.objects id = some object →
      object.laysAll = true) (painted : next.Painted id) :
    ∃ object, next.objects id = some object ∧ object.needsLayout = false :=
  painted_clean orderly laid painted fun parent above _ below found listed =>
    absurd listed (not_surplus (all parent above below found))

theorem layout_paintable (orderly : owner.Orderly)
    (laid : layoutRender viewport owner = some (.ok (), next))
    (all : ∀ id object, Below owner.tree owner.root id → owner.objects id = some object →
      object.laysAll = true) : next.Paintable := by
  intro id painted
  obtain ⟨object, found, clean⟩ := painted_all_clean orderly laid all painted
  exact ⟨object, found, current_paintable
    ((layout_ends orderly laid).1.current id object found clean)⟩

/-- In every run, an object that does not need layout fits its constraints. -/
theorem laid_out_fits (reached : Reachable renderMachine owner)
    (found : owner.objects id = some object) (clean : object.needsLayout = false) :
    object.Fits :=
  current_fits ((orderly_reached reached).current id object found clean)

theorem padded_text_fits : ∃ owner object, Reachable renderMachine owner ∧
    owner.objects 3 = some object ∧ object.needsLayout = false ∧ object.Fits := by
  obtain ⟨owner, next, reached, laid, painted, all⟩ := padded_text_laid
  obtain ⟨object, found, clean⟩ := painted_all_clean (orderly_reached reached) laid
    (fun id object _ => all id object) painted
  have stepped : renderMachine.step owner (.layout window) = some next := by
    change (layoutRender window owner).map Prod.snd = some next
    rw [laid]
    rfl
  have reached : Reachable renderMachine next := Reaches.step reached trivial stepped
  exact ⟨next, object, reached, found, clean, laid_out_fits reached found clean⟩

end Owners

/-! Sizes, whether or not they are those of the last layout. -/

/-- No object has a negative size. -/
def RenderOwner.Sized (owner : RenderOwner) : Prop :=
  ∀ id object, owner.objects id = some object →
    0 ≤ object.measure.size.width ∧ 0 ≤ object.measure.size.height

section Sizes
variable {owner next : RenderOwner} {id : RenderId} {object : RenderObject}
  {lay : RenderId → LayoutConstraints → Rendering Unit}

theorem orphan_measure (object : RenderObject) : (object.orphan id).measure = object.measure := by
  unfold RenderObject.orphan
  split <;> rfl

namespace RenderOwner.Sized

/-- Objects keep their sizes where they are changed otherwise. -/
theorem map {f : RenderId → RenderObject → RenderObject} (sized : owner.Sized)
    (objects : ∀ id, next.objects id = (owner.objects id).map (f id))
    (same : ∀ id object, (f id object).measure = object.measure) : next.Sized := by
  intro id after found
  rw [objects] at found
  obtain ⟨before, there, rfl⟩ := Option.map_eq_some_iff.mp found
  rw [same]
  exact sized id before there

/-- One object is changed, and has a size that is not negative. -/
theorem modify {f : RenderObject → RenderObject} (sized : owner.Sized)
    (fits : ∀ object, owner.objects id = some object →
      0 ≤ (f object).measure.size.width ∧ 0 ≤ (f object).measure.size.height) :
    (owner.modify id f).Sized := by
  intro other after found
  rw [modify_objects] at found
  split at found
  · obtain ⟨before, there, rfl⟩ := Option.map_eq_some_iff.mp found
    exact fits before there
  · exact sized other after found

theorem mark_layout (sized : owner.Sized) (id : RenderId) : (owner.markNeedsLayout id).Sized :=
  sized.map (fun other => mark_layout_objects owner id other) fun _ _ => by
    split <;> rfl

theorem mark (sized : owner.Sized) (id : RenderId) (marks : Invalidation) :
    (owner.mark id marks).Sized := by
  cases marks with
  | nothing | paint => exact sized
  | layout => exact sized.mark_layout id

theorem place (sized : owner.Sized) (placement : Placement) (self child : RenderId)
    (offset : Offset) : (owner.place placement self child offset).Sized := by
  have moved : (owner.modify child fun object => { object with offset }).Sized :=
    sized.modify fun object found => sized child object found
  unfold RenderOwner.Sized at moved ⊢
  rw [(place_eq owner self child placement offset).1]
  exact moved

theorem destroy (sized : owner.Sized) (id : RenderId) : (owner.destroy id).Sized := by
  have forgotten : ∀ {owner : RenderOwner}, owner.Sized → (owner.forget id).Sized := by
    intro owner sized other after found
    unfold RenderOwner.forget at found
    dsimp only at found
    split at found
    · cases found
    · obtain ⟨before, there, rfl⟩ := Option.map_eq_some_iff.mp found
      rw [orphan_measure]
      exact sized other before there
  unfold RenderOwner.destroy
  split
  · exact forgotten sized
  · refine forgotten (mark_layout ?_ _)
    exact sized.modify fun object found => sized _ object found

end RenderOwner.Sized

/-- What a script ends with has a size that is not negative. -/
theorem script_sized (object : RenderObject) (constraints : LayoutConstraints) :
    (object.script constraints).Lays object.kind.unlaid object.children fun laid _ =>
      0 ≤ laid.measure.size.width ∧ 0 ≤ laid.measure.size.height := by
  unfold RenderObject.script
  rw [lays_bind]
  cases constraints with
  | box constraints =>
    refine (layout_lays object.kind (.box constraints)).mono fun laid _ _ => ?_
    obtain ⟨width, height, _⟩ := constraints.valid
    rw [settleMeasure]
    cases settled : constraints.constrain laid.measure.size with
    | error failure => trivial
    | ok size =>
      have allows := constrain_allows settled
      exact ⟨width.trans allows.1.1, height.trans allows.2.1⟩
  | sliver constraints =>
    have unsized : (performLayout object.kind (.sliver constraints) object.children).Lays
        object.kind.unlaid object.children fun laid _ => laid.measure.size = {} := by
      cases object.kind with
      | sliverToBoxAdapter => exact lays_bind.mpr (adapter_lays.mono fun _ _ _ => rfl)
      | fixedExtentList list => exact lays_bind.mpr ((list_lays list).mono fun _ _ _ => rfl)
      | _ => trivial
    refine unsized.mono fun laid _ same => ?_
    rw [settleMeasure]
    split
    · trivial
    · change 0 ≤ laid.measure.size.width ∧ 0 ≤ laid.measure.size.height
      rw [same]
      exact ⟨le_rfl, le_rfl⟩

/-- What running a script returns is what the script ends with. -/
theorem perform_ends {α : Type} {unlaid : RenderKind} {post : α → List RenderId → Prop}
    (self : RenderId) : ∀ {script : LayoutScript α} {left : List RenderId},
      script.Lays unlaid left post →
      Yields (fun _ => True) (script.perform lay self) fun value _ => ∃ left, post value left := by
  intro script
  induction script with
  | done value => exact fun lays => Yields.pure fun _ _ => ⟨_, lays⟩
  | fail failure => exact fun _ => Yields.throw
  | put kind next ih => exact fun lays => Yields.skip fun _ => ih lays.2
  | lay placement child constraints offset next ih =>
    exact fun lays => Yields.skip fun _ => Yields.skip fun measure => ih measure (lays.2 measure)

theorem perform_sized (laying : ∀ id constraints, Keeps RenderOwner.Sized (lay id constraints))
    {α : Type} (self : RenderId) : ∀ script : LayoutScript α,
    Keeps RenderOwner.Sized (script.perform lay self) := by
  intro script
  induction script with
  | done value => exact Keeps.pure
  | fail failure => exact Keeps.throw
  | put kind next ih =>
    refine Keeps.bind (Keeps.change fun owner sized => ?_) fun _ => ih
    exact sized.modify fun object found => sized self object found
  | lay placement child constraints offset next ih =>
    have placing : Keeps RenderOwner.Sized (Run.change fun owner =>
        owner.place placement self child offset : Rendering Unit) :=
      Keeps.change fun owner sized => sized.place placement self child offset
    have placed : Keeps RenderOwner.Sized
        (layPlaced lay placement self child constraints offset) := by
      unfold layPlaced
      split
      · exact placing.bind fun _ => laying child constraints
      · exact (laying child constraints).bind fun _ => placing
    have measured : Keeps RenderOwner.Sized (measureOf child) := by
      refine Keeps.read.bind fun found => ?_
      cases found with
      | none => exact Keeps.diverge
      | some object => exact Keeps.pure
    exact placed.bind fun _ => measured.bind ih

/-- Laying out keeps sizes from being negative, by induction on the depth that is left. -/
theorem layout_object_sized (fuel : Nat) : ∀ id constraints,
    Keeps RenderOwner.Sized (layoutObject fuel id constraints) := by
  induction fuel with
  | zero => exact fun _ _ => Keeps.diverge
  | succ fuel ih =>
    intro id constraints owner outcome next sized ran
    rw [layoutObject, Run.read_ends_iff] at ran
    cases found : owner.objects id with
    | none =>
      rw [found] at ran
      cases ran
    | some object =>
      rw [found] at ran
      dsimp only at ran
      split at ran
      · cases ran
        exact sized
      rw [Run.change_ends_iff, Run.attempt_ends_iff] at ran
      obtain ⟨caught, middle, performed, ended⟩ := ran
      have started : (owner.modify id fun object =>
          { object with constraints := some constraints, needsLayout := true }).Sized :=
        sized.modify fun object found => sized id object found
      have kept := perform_sized ih id _ _ _ _ started performed
      cases caught with
      | error failure =>
        cases ended
        exact kept.modify fun object found => kept id object found
      | ok laid =>
        obtain ⟨_, fits⟩ := perform_ends id (script_sized object constraints) _ laid middle
          trivial performed
        have settled : (middle.modify id fun current => current.settle laid).Sized :=
          kept.modify fun _ _ => fits
        cases ended
        split <;> exact settled

theorem layout_sized (viewport : BoxConstraints) :
    Keeps RenderOwner.Sized (layoutRender viewport) :=
  Keeps.read.bind fun owner => (layout_object_sized owner.nextId owner.root _).bind fun _ =>
    Keeps.change fun _ sized => sized

theorem construct_sized (arguments : RenderArguments) :
    Keeps RenderOwner.Sized (constructRender arguments) := by
  refine Keeps.read.bind fun id => Keeps.bind (Keeps.change ?_) fun _ => ?_
  · exact fun owner sized => sized
  cases constructedKind arguments with
  | error failure => exact Keeps.throw
  | ok kind =>
    refine (Keeps.change fun owner sized => ?_).bind fun _ => Keeps.pure
    intro other object found
    change Function.update owner.objects id _ other = some object at found
    rw [Function.update_apply] at found
    split at found
    · cases found
      exact ⟨le_rfl, le_rfl⟩
    · exact sized other object found

theorem set_children_sized (id : RenderId) (children : List (Option RenderId)) :
    Keeps RenderOwner.Sized (setRenderChildren id children) := by
  refine Keeps.read.bind fun found => ?_
  cases found with
  | none => exact Keeps.diverge
  | some object =>
    dsimp only
    split
    · exact Keeps.pure
    · refine Keeps.resume.bind fun _ => Keeps.read.bind fun _ => Keeps.resume.bind fun _ =>
        Keeps.change fun owner sized => RenderOwner.Sized.mark_layout ?_ id
      refine sized.map (fun _ => rfl) fun _ object => ?_
      unfold RenderObject.relink
      split
      · rfl
      · split
        · rfl
        · exact orphan_measure object

theorem configure_sized (id : RenderId) (setting : RenderSetting) :
    Keeps RenderOwner.Sized (configureRender id setting) := by
  refine Keeps.read.bind fun found => ?_
  cases found with
  | none => exact Keeps.diverge
  | some object =>
    refine Keeps.resume.bind fun (kind, marks) => Keeps.change fun owner sized => ?_
    refine RenderOwner.Sized.mark (sized.modify fun object found => ?_) id marks
    exact sized id object found

theorem initially_sized : RenderOwner.initially.Sized := by
  intro id object found
  change (if id = 1 then some _ else none) = some object at found
  split at found
  · cases found
    exact ⟨le_rfl, le_rfl⟩
  · cases found

/-- No step gives an object a negative size. -/
theorem step_sized {action : RenderAction} (sized : owner.Sized)
    (stepped : renderStep owner action = some next) : next.Sized :=
  step_keeps RenderOwner.Sized construct_sized (fun _ id sized _ _ => sized.destroy id)
    set_children_sized configure_sized layout_sized sized stepped

end Sizes

end Dui
