import Dui.RenderTree

/-! Layout. What a class does in `perform_layout` is a script: it lays out children, one
after the other, and goes on with what they measure. `layout` runs the script unless the
object has been laid out under the same constraints, and takes the constraints back if the
script throws. -/
namespace Dui
open Effect

/-- How a child gets its offset: before it is laid out, by the `layout_child` of a box;
after that, by the `layout_box_child` of a sliver; or after that, by a viewport. -/
inductive Placement where
  | boxChild
  | sliverBoxChild
  | viewportSliver
  deriving DecidableEq, Repr

/-- What a `perform_layout` does: it sets fields of its own and lays out children. -/
inductive LayoutScript (α : Type) where
  | done (value : α)
  | fail (failure : Failure)
  | put (kind : RenderKind) (next : LayoutScript α)
  | lay (placement : Placement) (child : RenderId) (constraints : LayoutConstraints)
      (offset : Offset) (next : Measure → LayoutScript α)

namespace LayoutScript
variable {α β : Type}

def bind : LayoutScript α → (α → LayoutScript β) → LayoutScript β
  | .done value, rest => rest value
  | .fail failure, _ => .fail failure
  | .put kind next, rest => .put kind (next.bind rest)
  | .lay placement child constraints offset next, rest =>
    .lay placement child constraints offset fun measure => (next measure).bind rest

instance : Monad LayoutScript where
  pure := .done
  bind := bind

/-- Goes on with a value unless its computation threw. -/
def lift : Except Failure α → LayoutScript α
  | .ok value => .done value
  | .error failure => .fail failure

end LayoutScript

open LayoutScript

/-- `RenderBox::layout_child`; the size of the child afterwards. -/
def layoutChild (child : RenderId) (constraints : BoxConstraints) (offset : Offset) :
    LayoutScript Size :=
  .lay .boxChild child (.box constraints) offset fun measure => .done measure.size

/-- `RenderSliver::layout_box_child`; the size of the child afterwards. -/
def layoutBoxChild (child : RenderId) (constraints : BoxConstraints) (offset : Offset) :
    LayoutScript Size :=
  .lay .sliverBoxChild child (.box constraints) offset fun measure => .done measure.size

/-- How a viewport lays out a sliver; the geometry of the sliver afterwards. -/
def layoutSliver (child : RenderId) (constraints : SliverConstraints) (offset : Offset) :
    LayoutScript SliverGeometry :=
  .lay .viewportSliver child (.sliver constraints) offset fun measure => .done measure.geometry

/-! The `perform_layout` of the classes. -/

def performVStack (constraints : BoxConstraints) (children : List RenderId) :
    LayoutScript Size := do
  let childConstraints ← lift (BoxConstraints.checked 0 constraints.maxWidth 0 ⊤)
  let extent ← children.foldlM (fun extent child => do
    let size ← layoutChild child childConstraints ⟨0, extent.height⟩
    pure (⟨max extent.width size.width, extent.height + size.height⟩ : Size)) {}
  lift (constraints.constrain extent)

def performHStack (constraints : BoxConstraints) (children : List RenderId) :
    LayoutScript Size := do
  let childConstraints ← lift (BoxConstraints.checked 0 ⊤ 0 constraints.maxHeight)
  let extent ← children.foldlM (fun extent child => do
    let size ← layoutChild child childConstraints ⟨extent.width, 0⟩
    pure (⟨extent.width + size.width, max extent.height size.height⟩ : Size)) {}
  lift (constraints.constrain extent)

def performStack (constraints : BoxConstraints) (children : List RenderId) :
    LayoutScript Size := do
  let extent ← children.foldlM (fun extent child => do
    let size ← layoutChild child constraints.loosen {}
    pure (⟨max extent.width size.width, max extent.height size.height⟩ : Size)) {}
  lift (constraints.constrain extent)

/-- What is left of a length inside a padding. -/
def reduceExtent (amount : ℚ) : Extent → Extent
  | some value => (max 0 (value - amount) : ℚ)
  | none => ⊤

def performPadding (insets : Insets) (constraints : BoxConstraints) :
    List RenderId → LayoutScript Size
  | [] => lift (constraints.constrain ⟨insets.horizontal, insets.vertical⟩)
  | child :: _ => do
    let childConstraints ← lift (BoxConstraints.checked
      (max 0 (constraints.minWidth - insets.horizontal))
      (reduceExtent insets.horizontal constraints.maxWidth)
      (max 0 (constraints.minHeight - insets.vertical))
      (reduceExtent insets.vertical constraints.maxHeight))
    let size ← layoutChild child childConstraints ⟨insets.left, insets.top⟩
    lift (constraints.constrain ⟨size.width + insets.horizontal, size.height + insets.vertical⟩)

/-- The `perform_layout` that colored boxes, action boxes, semantics boxes and repaint
boundaries have alike. -/
def performProxy (constraints : BoxConstraints) : List RenderId → LayoutScript Size
  | [] => lift (constraints.constrain {})
  | child :: _ => do
    let size ← layoutChild child constraints.loosen {}
    lift (constraints.constrain size)

def performView (constraints : BoxConstraints) (children : List RenderId) : LayoutScript Size :=
  match constraints.biggest with
  | none => .fail (.logicError "RenderView requires finite viewport constraints")
  | some viewport => do
    let childConstraints ← lift (BoxConstraints.loose viewport)
    let _ ← children.foldlM (fun _ child => layoutChild child childConstraints {}) {}
    pure viewport

/-- The size and the greatest scroll offset. -/
def performViewport (scrollOffset : ℚ) (constraints : BoxConstraints) (children : List RenderId) :
    LayoutScript (Size × ℚ) :=
  match constraints.biggest with
  | none => .fail (.logicError "RenderViewport requires finite viewport constraints")
  | some viewport => do
    let preceding ← children.foldlM (fun preceding child => do
      let paintOrigin := max 0 (preceding - scrollOffset)
      let remaining := max 0 (viewport.height - paintOrigin)
      let localScroll := max 0 (scrollOffset - preceding)
      let childConstraints ← lift (SliverConstraints.checked localScroll preceding remaining
        viewport.width viewport.height)
      let geometry ← layoutSliver child childConstraints ⟨0, paintOrigin⟩
      pure (preceding + geometry.scrollExtent)) 0
    pure (viewport, max 0 (preceding - viewport.height))

def performSliverToBoxAdapter (constraints : SliverConstraints) :
    List RenderId → LayoutScript SliverGeometry
  | [] => pure {}
  | child :: _ => do
    let size ← layoutBoxChild child constraints.asBoxConstraints ⟨0, -constraints.scrollOffset⟩
    let scrollExtent := size.height
    let visible := min (max 0 (scrollExtent - constraints.scrollOffset))
      constraints.remainingPaintExtent
    lift (SliverGeometry.checked scrollExtent visible scrollExtent visible
      (0 < constraints.scrollOffset || visible < scrollExtent))

/-- The geometry that a fixed-extent list sets. -/
def FixedExtentList.geometry (list : FixedExtentList) (childCount : Nat)
    (constraints : SliverConstraints) (hitTestExtent : ℚ) : Except Failure SliverGeometry :=
  let scrollExtent := list.scrollExtent childCount
  let visibleExtent := list.visibleExtent childCount constraints
  SliverGeometry.checked scrollExtent visibleExtent scrollExtent hitTestExtent
    (0 < constraints.scrollOffset || visibleExtent < scrollExtent)

/-- The item that a mounted child stands for. -/
def FixedExtentList.logicalIndex (list : FixedExtentList) (childIndex : Nat) : Nat :=
  if list.isLazy then list.firstMountedIndex + childIndex else childIndex

/-- Where a mounted child is placed. -/
def FixedExtentList.itemOffset (list : FixedExtentList) (constraints : SliverConstraints)
    (childIndex : Nat) : Offset :=
  ⟨0, (list.logicalIndex childIndex : ℚ) * list.itemExtent - constraints.scrollOffset⟩

def performFixedExtentList (list : FixedExtentList) (constraints : SliverConstraints)
    (children : List RenderId) : LayoutScript (SliverGeometry × FixedExtentList) :=
  let ranged := list.updateRanges children.length constraints
  .put (.fixedExtentList ranged) do
    if list.mustRequest children.length constraints then
      let geometry ← lift (list.geometry children.length constraints 0)
      pure (geometry, ranged)
    else
      let childConstraints ← lift (BoxConstraints.checked constraints.crossAxisExtent
        constraints.crossAxisExtent list.itemExtent list.itemExtent)
      let visible := (children.drop ranged.firstVisibleChild).take ranged.visibleChildCount
      let _ ← visible.foldlM (fun childIndex child => do
        let _ ← layoutBoxChild child childConstraints (list.itemOffset constraints childIndex)
        pure (childIndex + 1)) ranged.firstVisibleChild
      let geometry ← lift (list.geometry children.length constraints
        (list.visibleExtent children.length constraints))
      pure (geometry, ranged)

/-- What `perform_layout` leaves: what the object measures, and its own fields. -/
structure Laid where
  measure : Measure
  kind : RenderKind
  deriving DecidableEq

/-- A box that sets no field but its size. -/
def sized (kind : RenderKind) (script : LayoutScript Size) : LayoutScript Laid := do
  let size ← script
  pure { measure := { size }, kind }

/-- `perform_layout`. -/
def performLayout : RenderKind → LayoutConstraints → List RenderId → LayoutScript Laid
  | .text content onActivate, .box constraints, _ =>
    sized (.text content onActivate)
      (lift (constraints.constrain ⟨(content.utf8ByteSize : ℚ) * 8, 16⟩))
  | .image asset intrinsicSize semanticsLabel, .box constraints, _ =>
    sized (.image asset intrinsicSize semanticsLabel) (lift (constraints.constrain intrinsicSize))
  | .vStack, .box constraints, children => sized .vStack (performVStack constraints children)
  | .hStack, .box constraints, children => sized .hStack (performHStack constraints children)
  | .stack, .box constraints, children => sized .stack (performStack constraints children)
  | .padding insets, .box constraints, children =>
    sized (.padding insets) (performPadding insets constraints children)
  | .coloredBox color, .box constraints, children =>
    sized (.coloredBox color) (performProxy constraints children)
  | .actionBox action, .box constraints, children =>
    sized (.actionBox action) (performProxy constraints children)
  | .semanticsBox properties onActivate, .box constraints, children =>
    sized (.semanticsBox properties onActivate) (performProxy constraints children)
  | .repaintBoundary, .box constraints, children =>
    sized .repaintBoundary (performProxy constraints children)
  | .view, .box constraints, children => sized .view (performView constraints children)
  | .viewport scrollOffset _, .box constraints, children => do
    let (size, maxScrollExtent) ← performViewport scrollOffset constraints children
    pure { measure := { size }, kind := .viewport scrollOffset maxScrollExtent }
  | .sliverToBoxAdapter, .sliver constraints, children => do
    let geometry ← performSliverToBoxAdapter constraints children
    pure { measure := { geometry }, kind := .sliverToBoxAdapter }
  | .fixedExtentList list, .sliver constraints, children => do
    let (geometry, list) ← performFixedExtentList list constraints children
    pure { measure := { geometry }, kind := .fixedExtentList list }
  | _, .box _, _ => .fail (.logicError "RenderBox layout requires a RenderBox child")
  | _, .sliver _, _ => .fail (.logicError "RenderSliver box layout requires a RenderBox child")

/-- What `RenderBox::layout` and `RenderSliver::layout` make of what was measured. -/
def settleMeasure (laid : Laid) : LayoutConstraints → Except Failure Laid
  | .box constraints => do
    let size ← constraints.constrain laid.measure.size
    pure { laid with measure := { laid.measure with size } }
  | .sliver constraints =>
    if laid.measure.geometry.paintExtent > constraints.remainingPaintExtent then
      throw (.logicError "Sliver paint extent exceeds its remaining paint extent")
    else pure laid

/-- What `layout` tries. -/
def RenderObject.script (object : RenderObject) (constraints : LayoutConstraints) :
    LayoutScript Laid := do
  let laid ← performLayout object.kind constraints object.children
  lift (settleMeasure laid constraints)

/-! Running a script. -/

namespace RenderOwner

/-- Gives a child its offset; if that is another one, the child or its parent must be
painted again. -/
def place (owner : RenderOwner) (placement : Placement) (parent child : RenderId)
    (offset : Offset) : RenderOwner :=
  if (owner.objects child).any (·.offset = offset) then owner
  else
    let moved := owner.modify child fun object => { object with offset }
    if placement ≠ .viewportSliver ∧ moved.isRepaintBoundary child then
      moved.markNeedsPaint parent
    else moved.markNeedsPaint child

end RenderOwner

/-- What a child measures. -/
def measureOf (id : RenderId) : Rendering Measure := do
  match ← Run.read (·.objects id) with
  | none => Run.diverge
  | some object => pure object.measure

/-- Lays out a child and gives it its offset. -/
def layPlaced (lay : RenderId → LayoutConstraints → Rendering Unit) (placement : Placement)
    (self child : RenderId) (constraints : LayoutConstraints) (offset : Offset) :
    Rendering Unit :=
  if placement = .boxChild then do
    Run.change fun owner => owner.place placement self child offset
    lay child constraints
  else do
    lay child constraints
    Run.change fun owner => owner.place placement self child offset

/-- Runs a script for an object, given how its children are laid out. -/
def LayoutScript.perform {α : Type} (lay : RenderId → LayoutConstraints → Rendering Unit)
    (self : RenderId) : LayoutScript α → Rendering α
  | .done value => pure value
  | .fail failure => Run.throw failure
  | .put kind next => do
    Run.change fun owner => owner.modify self fun object => { object with kind }
    next.perform lay self
  | .lay placement child constraints offset next => do
    layPlaced lay placement self child constraints offset
    let measure ← measureOf child
    (next measure).perform lay self

/-- The fields once the script has run. -/
def RenderObject.settle (object : RenderObject) (laid : Laid) : RenderObject :=
  { object with measure := laid.measure, kind := laid.kind, needsLayout := false }

/-- `layout`, of a box or of a sliver. -/
def layoutObject : Nat → RenderId → LayoutConstraints → Rendering Unit
  | 0, _, _ => Run.diverge
  | fuel + 1, id, constraints => do
    match ← Run.read (·.objects id) with
    | none => Run.diverge
    | some object =>
      if object.needsLayout = false ∧ object.constraints = some constraints then pure ()
      else
        Run.change fun owner => owner.modify id fun object =>
          { object with constraints := some constraints, needsLayout := true }
        match ← Run.attempt ((object.script constraints).perform (layoutObject fuel) id) with
        | .error failure =>
          Run.change fun owner =>
            let restored := owner.modify id fun current =>
              { current with constraints := object.constraints }
            { restored with dirtyLayout := insert id restored.dirtyLayout }
          Run.throw failure
        | .ok laid =>
          Run.change fun owner =>
            let settled := owner.modify id fun current => current.settle laid
            let settled := { settled with dirtyLayout := settled.dirtyLayout.erase id }
            if object.constraints ≠ some constraints ∨ laid.measure ≠ object.measure then
              settled.markNeedsPaint id
            else settled

/-- `RenderOwner::layout`. No object is deeper than there are objects. -/
def layoutRender (viewport : BoxConstraints) : Rendering Unit := do
  let owner ← Run.read id
  layoutObject owner.nextId owner.root (.box viewport)
  Run.change fun owner => { owner with dirtyLayout := ∅ }

/-! What is painted. -/

/-- `paint_child_range`. -/
def RenderObject.paintChildRange (object : RenderObject) : Nat × Nat :=
  match object.kind with
  | .fixedExtentList list => list.paintChildRange
  | .sliverToBoxAdapter =>
    if 0 < object.measure.geometry.paintExtent then (0, object.children.length) else (0, 0)
  | _ => (0, object.children.length)

/-- The children in the `paint_child_range`. -/
def RenderObject.paintChildren (object : RenderObject) : List RenderId :=
  (object.children.take object.paintChildRange.2).drop object.paintChildRange.1

/-- What recording the root visits: the objects reached from it by painted children. -/
inductive RenderOwner.Painted (owner : RenderOwner) : RenderId → Prop where
  | root : owner.Painted owner.root
  | child {id child : RenderId} {object : RenderObject} (painted : owner.Painted id)
      (found : owner.objects id = some object) (listed : child ∈ object.paintChildren) :
      owner.Painted child

end Dui
