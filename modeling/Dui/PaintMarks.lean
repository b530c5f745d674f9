import Dui.Compositing
import Dui.Scene

/-! What marking announces. A mark goes up to the first repaint boundary, which then needs
paint, and flags all boundaries above that one. So where a boundary carries no flag, nothing
that is painted with it has changed its look since the flag was taken. -/
namespace Dui
open ForestEdit

/-! Flags of a line of objects. -/

namespace PaintState
variable {isBoundary : RenderId → Bool} {paint before after last : PaintState} {id other : RenderId}

/-- A boundary that has to be recorded or composed again. -/
def flagged (paint : PaintState) (id : RenderId) : Bool :=
  paint.needsPaint id || paint.needsCompositing id

/-- No flag is lost; compositing may give way to paint. -/
structure Grows (before after : PaintState) : Prop where
  paint : ∀ id, before.needsPaint id = true → after.needsPaint id = true
  flagged : ∀ id, before.flagged id = true → after.flagged id = true

/-- What is flagged has been scheduled. -/
structure Scheduled (paint : PaintState) (id : RenderId) : Prop where
  needs : paint.needsPaint id = true → id ∈ paint.dirtyPaint
  composes : paint.needsCompositing id = true →
    paint.needsPaint id = true ∨ id ∈ paint.dirtyCompositing

/-- The first boundary of the line needs paint, and the boundaries above it are flagged. -/
def Marked (isBoundary : RenderId → Bool) (paint : PaintState) : List RenderId → Prop
  | [] => True
  | id :: above =>
    if isBoundary id then
      paint.needsPaint id = true ∧
        ∀ other ∈ above, isBoundary other = true → paint.flagged other = true
    else Marked isBoundary paint above

theorem Grows.refl (paint : PaintState) : paint.Grows paint :=
  ⟨fun _ flag => flag, fun _ flag => flag⟩

theorem Grows.trans (first : before.Grows after) (second : after.Grows last) : before.Grows last :=
  ⟨fun id flag => second.paint id (first.paint id flag),
    fun id flag => second.flagged id (first.flagged id flag)⟩

theorem Marked.grow (grows : before.Grows after) :
    ∀ {line : List RenderId}, before.Marked isBoundary line → after.Marked isBoundary line := by
  intro line
  induction line with
  | nil => exact id
  | cons first above ih =>
    intro marked
    unfold Marked at marked ⊢
    split at marked
    case isTrue boundary =>
      rw [if_pos boundary]
      exact ⟨grows.paint first marked.1,
        fun other listed apart => grows.flagged other (marked.2 other listed apart)⟩
    case isFalse inner =>
      rw [if_neg inner]
      exact ih marked

section Invalidating

theorem invalidate_paint : (paint.invalidate id).needsPaint other =
    (decide (other = id) || paint.needsPaint other) := by
  unfold invalidate
  by_cases same : other = id
  · subst same
    split
    · simp_all
    · simp
  · split <;> simp [same]

theorem invalidate_compositing :
    (paint.invalidate id).needsCompositing = paint.needsCompositing := by
  unfold invalidate
  split <;> rfl

theorem invalidate_grows : paint.Grows (paint.invalidate id) := by
  constructor
  · intro other flag
    rw [invalidate_paint, flag, Bool.or_true]
  · intro other flag
    unfold flagged at flag ⊢
    rw [invalidate_paint, invalidate_compositing, Bool.or_assoc, flag, Bool.or_true]

theorem invalidate_scheduled (scheduled : paint.Scheduled other) :
    (paint.invalidate id).Scheduled other := by
  unfold invalidate
  split
  · exact scheduled
  · constructor
    · intro flag
      by_cases same : other = id
      · exact same ▸ Finset.mem_insert_self _ _
      · have flag := (Function.update_of_ne same _ _).symm.trans flag
        exact Finset.mem_insert_of_mem (scheduled.needs flag)
    · intro flag
      rcases scheduled.composes flag with needs | listed
      · by_cases same : other = id
        · exact .inl (same ▸ Function.update_self ..)
        · exact .inl ((Function.update_of_ne same _ _).trans needs)
      · exact .inr listed

end Invalidating

section Recomposing
variable {line : List RenderId}

theorem recompose_paint : (recompose isBoundary paint id).needsPaint = paint.needsPaint := by
  unfold recompose
  split <;> rfl

theorem recompose_compositing : (recompose isBoundary paint id).needsCompositing other =
    (paint.needsCompositing other || (isBoundary id && decide (other = id))) := by
  unfold recompose
  by_cases same : other = id
  · subst same
    split <;> simp_all
  · split <;> simp [same]

theorem recompose_scheduled (scheduled : paint.Scheduled other) :
    (recompose isBoundary paint id).Scheduled other := by
  unfold recompose
  split
  · refine ⟨scheduled.needs, fun flag => ?_⟩
    by_cases same : other = id
    · exact .inr (same ▸ Finset.mem_insert_self _ _)
    · have flag := (Function.update_of_ne same _ _).symm.trans flag
      exact (scheduled.composes flag).imp_right Finset.mem_insert_of_mem
  · exact scheduled

/-- The boundaries of a line are flagged one after the other. -/
theorem recompose_line (isBoundary : RenderId → Bool) (line : List RenderId) :
    ∀ paint : PaintState,
    (line.foldl (recompose isBoundary) paint).needsPaint = paint.needsPaint ∧
      (∀ other, (line.foldl (recompose isBoundary) paint).needsCompositing other =
        (paint.needsCompositing other || (isBoundary other && decide (other ∈ line)))) ∧
      ∀ other, paint.Scheduled other →
        (line.foldl (recompose isBoundary) paint).Scheduled other := by
  induction line with
  | nil => simp
  | cons first rest ih =>
    intro paint
    obtain ⟨needs, composes, scheduled⟩ := ih (recompose isBoundary paint first)
    rw [List.foldl_cons]
    refine ⟨needs.trans recompose_paint, fun other => ?_, fun other before =>
      scheduled other (recompose_scheduled before)⟩
    rw [composes, recompose_compositing]
    by_cases same : other = first
    · subst same
      cases isBoundary other <;> simp
    · simp [same]

end Recomposing

/-- What a mark from an object up its line does. -/
theorem mark_along_spec (isBoundary : RenderId → Bool) :
    ∀ (line : List RenderId) (paint : PaintState),
    paint.Grows (paint.markAlong isBoundary line) ∧
      (paint.markAlong isBoundary line).Marked isBoundary line ∧
      ∀ other, paint.Scheduled other → (paint.markAlong isBoundary line).Scheduled other := by
  intro line
  induction line with
  | nil => exact fun paint => ⟨.refl _, trivial, fun _ scheduled => scheduled⟩
  | cons first above ih =>
    intro paint
    unfold markAlong Marked
    dsimp only
    split
    case isTrue boundary =>
      obtain ⟨needs, composes, scheduled⟩ := recompose_line isBoundary above
        { paint.invalidate first with
          needsCompositing :=
            Function.update (paint.invalidate first).needsCompositing first false }
      have painted : ∀ other, (above.foldl (recompose isBoundary) { paint.invalidate first with
          needsCompositing := Function.update (paint.invalidate first).needsCompositing first
            false }).needsPaint other = (decide (other = first) || paint.needsPaint other) := by
        intro other
        rw [needs]
        exact invalidate_paint
      refine ⟨⟨fun other flag => ?_, fun other flag => ?_⟩, ⟨?_, fun other listed apart => ?_⟩,
        fun other before => scheduled other ?_⟩
      · rw [painted, flag, Bool.or_true]
      · unfold flagged at flag ⊢
        rw [painted, composes]
        by_cases same : other = first
        · simp [same]
        · simp only [same, decide_false, Bool.false_or, ne_eq, not_false_eq_true,
            Function.update_of_ne, invalidate_compositing]
          rw [← Bool.or_assoc, flag, Bool.true_or]
      · rw [painted]
        simp
      · unfold flagged
        rw [composes, apart]
        simp [listed]
      · -- the flag that gives way to paint is that of an object scheduled for paint
        obtain ⟨needs, composes⟩ : (paint.invalidate first).Scheduled other :=
          invalidate_scheduled before
        refine ⟨needs, fun flag => ?_⟩
        by_cases same : other = first
        · subst same
          cases (Function.update_self ..).symm.trans flag
        · exact composes ((Function.update_of_ne same _ _).symm.trans flag)
    case isFalse inner =>
      obtain ⟨grows, marked, scheduled⟩ := ih (paint.invalidate first)
      exact ⟨invalidate_grows.trans grows, marked,
        fun other before => scheduled other (invalidate_scheduled before)⟩

end PaintState


/-! What painting sees of render objects. -/

namespace RenderObject
variable (object : RenderObject)

/-- What painting sees of an object as it is. -/
def look : Look where
  boundary := object.kind.hasRepaintBoundary
  clips := (object.paintClip {}).isSome
  size := object.measure.size
  drawn := (object.paint {} {}).commands
  children := object.paintChildren

/-- The object, with the ranges that layout works out for a list under its constraints. -/
def ranged : RenderObject :=
  match object.kind, object.constraints with
  | .fixedExtentList list, some (.sliver constraints) =>
    { object with kind := .fixedExtentList (list.updateRanges object.children.length constraints) }
  | .fixedExtentList list, _ => { object with kind := .fixedExtentList list.unlaid }
  | _, _ => object

end RenderObject

namespace RenderOwner
variable (owner : RenderOwner)

/-- The objects as they are. -/
def scene : Scene := fun id => (owner.objects id).map fun object => ⟨object.look, object.offset⟩

/-- The objects as they are once they are laid out under the constraints they have. -/
def rangedScene : Scene := fun id =>
  (owner.objects id).map fun object => ⟨object.ranged.look, object.offset⟩

end RenderOwner

section Looks
variable {object other : RenderObject}

theorem unlaid_ranges (list : FixedExtentList) (childCount : Nat)
    (constraints : SliverConstraints) :
    (list.unlaid.updateRanges childCount constraints).paintChildRange =
      (list.updateRanges childCount constraints).paintChildRange := by
  unfold FixedExtentList.updateRanges
  by_cases requests : list.mustRequest childCount constraints = true
  · rw [if_pos requests]
    exact congrArg FixedExtentList.paintChildRange (if_pos requests)
  · rw [if_neg requests]
    exact congrArg FixedExtentList.paintChildRange (if_neg requests)

/-- A look does not depend on what layout has set of the class. -/
theorem ranged_unlaid (object : RenderObject) :
    (RenderObject.ranged { object with kind := object.kind.unlaid }).look =
      object.ranged.look := by
  obtain ⟨id, parent, children, kind, needsLayout, constraints, measure, offset⟩ := object
  cases kind with
  | fixedExtentList list =>
    rcases constraints with _ | constraints
    · rfl
    · cases constraints with
      | box constraints => rfl
      | sliver constraints =>
        have same := unlaid_ranges list children.length constraints
        simp only [RenderKind.unlaid, RenderObject.ranged, RenderObject.look,
          RenderObject.paintChildren, RenderObject.paintChildRange, same]
        rfl
  | _ => rfl

/-- A look is that of the fields it is made of. -/
theorem look_of_fields (object : RenderObject) (kind : RenderKind) :
    (RenderObject.ranged { object with kind }).look =
      (RenderObject.ranged ⟨0, none, object.children, kind, true, object.constraints,
        object.measure, {}⟩).look := by
  obtain ⟨id, parent, children, _, needsLayout, constraints, measure, offset⟩ := object
  cases kind with
  | fixedExtentList =>
    rcases constraints with _ | constraints
    · rfl
    · cases constraints <;> rfl
  | _ => rfl

theorem ranged_look (kind : other.kind.unlaid = object.kind.unlaid)
    (children : other.children = object.children)
    (constraints : other.constraints = object.constraints)
    (measure : other.measure = object.measure) : other.ranged.look = object.ranged.look := by
  rw [← ranged_unlaid other, ← ranged_unlaid object, look_of_fields other, look_of_fields object,
    kind, children, constraints, measure]

theorem ranged_boundary (object : RenderObject) :
    object.ranged.look.boundary = object.kind.hasRepaintBoundary := by
  rw [← ranged_unlaid, ← RenderKind.unlaid_boundary]
  obtain ⟨id, parent, children, kind, needsLayout, constraints, measure, offset⟩ := object
  cases kind with
  | fixedExtentList list =>
    rcases constraints with _ | constraints
    · rfl
    · cases constraints <;> rfl
  | _ => rfl

theorem ranged_size (object : RenderObject) : object.ranged.look.size = object.measure.size := by
  unfold RenderObject.ranged
  split <;> rfl

/-- Only children are painted. -/
theorem ranged_children (object : RenderObject) {child : RenderId}
    (painted : child ∈ object.ranged.look.children) :
    child ∈ object.children := by
  have among := List.mem_of_mem_take (List.mem_of_mem_drop painted)
  revert among
  unfold RenderObject.ranged
  split <;> exact id

end Looks

/-! Announced changes. -/

/-- The object is recorded with the boundary: it is the boundary, or below it without another
boundary between. -/
inductive RenderOwner.Hosted (owner : RenderOwner) (boundary : RenderId) : RenderId → Prop where
  | self : owner.Hosted boundary boundary
  | inner {id parent : RenderId} (named : ParentOf renderKeys owner.tree id parent)
      (within : owner.isRepaintBoundary id = false) (hosted : owner.Hosted boundary parent) :
      owner.Hosted boundary id

/-- The flags tell of a change of the object: the boundary that records it needs paint, and
every boundary above it has a flag. -/
structure RenderOwner.Announced (owner : RenderOwner) (paint : PaintState) (id : RenderId) :
    Prop where
  recorded : ∀ boundary, owner.isRepaintBoundary boundary = true → owner.Hosted boundary id →
    paint.needsPaint boundary = true
  flagged : ∀ boundary, owner.isRepaintBoundary boundary = true →
    Below owner.tree boundary id → paint.flagged boundary = true

/-- What changes from one owner to the next is announced: the looks of objects, and where they
are within their parents. -/
structure RenderOwner.Covers (before after : RenderOwner) : Prop where
  grows : before.paint.Grows after.paint
  scheduled : before.paint.Scheduled before.root → after.paint.Scheduled before.root
  boundary : ∀ id object now, before.objects id = some object → after.objects id = some now →
    now.kind.hasRepaintBoundary = object.kind.hasRepaintBoundary
  look : ∀ id object now, before.objects id = some object → after.objects id = some now →
    now.ranged.look = object.ranged.look ∨ before.Announced after.paint id
  offset : ∀ id parent object now, before.objects id = some object →
    after.objects id = some now → ParentOf renderKeys before.tree id parent →
    now.offset = object.offset ∨ before.Announced after.paint parent

section Announcing
variable {owner before after : RenderOwner} {paint later : PaintState} {id boundary : RenderId}
  {isBoundary : RenderId → Bool} {tree : RenderId → Option RenderObject}

theorem RenderOwner.Announced.grow (announced : owner.Announced paint id)
    (grows : paint.Grows later) : owner.Announced later id :=
  ⟨fun boundary apart hosted => grows.paint _ (announced.recorded boundary apart hosted),
    fun boundary apart below => grows.flagged _ (announced.flagged boundary apart below)⟩

theorem line_head (tree : RenderId → Option RenderObject) (steps : Nat) (id : RenderId) :
    ∃ above, ForestEdit.line renderKeys tree steps id = id :: above := by
  cases steps with
  | zero => exact ⟨[], rfl⟩
  | succ steps =>
    rw [ForestEdit.line]
    split
    · exact ⟨_, rfl⟩
    · exact ⟨_, rfl⟩

/-- A marked line flags all its boundaries. -/
theorem marked_flagged : ∀ {line : List RenderId}, paint.Marked isBoundary line →
    boundary ∈ line → isBoundary boundary = true → paint.flagged boundary = true := by
  intro line
  induction line with
  | nil =>
    intro _ listed
    cases listed
  | cons first above ih =>
    intro marked listed apart
    unfold PaintState.Marked at marked
    split at marked
    case isTrue =>
      rcases List.mem_cons.mp listed with same | listed
      · rw [same, PaintState.flagged, marked.1, Bool.true_or]
      · exact marked.2 boundary listed apart
    case isFalse inner =>
      rcases List.mem_cons.mp listed with same | listed
      · exact absurd (same ▸ apart) inner
      · exact ih marked listed apart

/-- The boundary that records an object is the first of its line. -/
theorem marked_hosted (apart : owner.isRepaintBoundary boundary = true)
    (hosted : owner.Hosted boundary id) : ∀ steps, climb renderKeys owner.tree steps id = true →
      paint.Marked owner.isRepaintBoundary (ForestEdit.line renderKeys owner.tree steps id) →
      paint.needsPaint boundary = true := by
  induction hosted with
  | self =>
    intro steps _ marked
    obtain ⟨above, line⟩ := line_head owner.tree steps boundary
    rw [line, PaintState.Marked, if_pos apart] at marked
    exact marked.1
  | @inner id parent named within _ ih =>
    intro steps climbed marked
    have up := parent_bind_iff.mpr named
    obtain ⟨object, held, above⟩ := named
    cases steps with
    | zero =>
      rw [climb, held, Option.any_some, above] at climbed
      cases climbed
    | succ steps =>
      rw [climb, held] at climbed
      dsimp only at climbed
      rw [above] at climbed
      rw [ForestEdit.line, up] at marked
      dsimp only at marked
      rw [PaintState.Marked, if_neg (Bool.eq_false_iff.mp within)] at marked
      exact ih steps climbed marked

/-- A line that is marked announces a change of its object. -/
theorem announced_of_marked (forest : Forest renderKeys owner.tree)
    (issued : ∀ id, (owner.tree id).isSome → id < owner.nextId) (there : (owner.tree id).isSome)
    (marked : paint.Marked owner.isRepaintBoundary (owner.line id)) : owner.Announced paint id := by
  constructor
  · intro boundary apart hosted
    have climbed := climb_ends forest (fun id there => List.mem_range.mpr (issued id there))
      (List.range owner.nextId).length id [] there List.nodup_nil (List.nil_subset _)
      (fun _ listed => absurd listed List.not_mem_nil) (by simp)
    rw [List.length_range] at climbed
    rw [RenderOwner.line, line_tree] at marked
    exact marked_hosted apart hosted owner.nextId climbed marked
  · intro boundary apart below
    refine marked_flagged marked ?_ apart
    exact (mem_line forest issued there).mpr below

end Announcing

end Dui
