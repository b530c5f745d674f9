import Mathlib.Data.Finset.Erase
import Mathlib.Data.Finset.Insert
import Dui.Effect
import Dui.FixedExtentList
import Dui.RootedForest
import Dui.SemanticsDiffer

/-! Render objects, and what is done to them outside of layout: they are constructed and
destroyed, adopt children and take new settings, and mark themselves and the objects above
them as in need of layout or of paint. -/
namespace Dui
open Effect ForestEdit

/-- `RenderObject::Id`. -/
abbrev RenderId := Nat

structure SemanticsProperties where
  role : SemanticsRole := .generic
  label : String := ""
  value : String := ""
  enabled : Bool := true
  hidden : Bool := false
  focusable : Bool := false
  focused : Bool := false
  deriving DecidableEq, Repr

/-- `RenderActionBox`: whether it has a callback to activate it, and the focus node that
its other callback asks, if it has that one. -/
structure ActionBox where
  onActivate : Bool
  stopsPropagation : Bool := false
  semanticsEnabled : Bool := true
  semanticsFocusable : Bool := false
  semanticsFocused : Option Nat := none
  deriving DecidableEq, Repr

/-- The classes of render objects, each with its own fields; of a callback, whether there
is one. -/
inductive RenderKind where
  | text (text : String) (onActivate : Bool)
  | image (asset : String) (intrinsicSize : Size) (semanticsLabel : String)
  | vStack
  | hStack
  | stack
  | padding (insets : Insets)
  | coloredBox (color : UInt32)
  | actionBox (action : ActionBox)
  | semanticsBox (properties : SemanticsProperties) (onActivate : Bool)
  | repaintBoundary
  | view
  | viewport (scrollOffset maxScrollExtent : ℚ)
  | sliverToBoxAdapter
  | fixedExtentList (list : FixedExtentList)
  deriving DecidableEq

/-- What an object is laid out under: the `constraints_` of a box or of a sliver. -/
inductive LayoutConstraints where
  | box (constraints : BoxConstraints)
  | sliver (constraints : SliverConstraints)
  deriving DecidableEq

/-- What layout finds out of an object: the `size_` of a box, the `geometry_` of a
sliver. -/
structure Measure where
  size : Size := {}
  geometry : SliverGeometry := {}
  deriving DecidableEq

/-- `RenderObject`; the offset is that of the parent data, of a box or of a sliver. -/
structure RenderObject where
  id : RenderId
  parent : Option RenderId := none
  children : List RenderId := []
  kind : RenderKind
  needsLayout : Bool := true
  constraints : Option LayoutConstraints := none
  measure : Measure := {}
  offset : Offset := {}
  deriving DecidableEq

/-- How render objects name themselves and their parents. -/
def renderKeys : Keyed RenderId RenderObject := ⟨RenderObject.id, RenderObject.parent⟩

/-- The `needs_paint_` and `needs_compositing_` of the objects, and the sets the owner
has of those scheduled. -/
structure PaintState where
  needsPaint : RenderId → Bool := fun _ => true
  needsCompositing : RenderId → Bool := fun _ => true
  dirtyPaint : Finset RenderId
  dirtyCompositing : Finset RenderId := ∅

/-- `RenderOwner`, without the layers it has composited. -/
structure RenderOwner where
  objects : RenderId → Option RenderObject
  nextId : RenderId
  root : RenderId
  dirtyLayout : Finset RenderId
  paint : PaintState
  hasCompletedFrame : Bool := false

/-- Code that works on the render tree. -/
abbrev Rendering := Run RenderOwner Failure

/-- The constructor: the root is a `RenderView`. -/
def RenderOwner.initially : RenderOwner where
  objects := fun id => if id = 1 then some { id := 1, kind := .view } else none
  nextId := 2
  root := 1
  dirtyLayout := {1}
  paint := { dirtyPaint := {1} }

namespace RenderKind

def hasRepaintBoundary : RenderKind → Bool
  | .repaintBoundary | .view => true
  | _ => false

/-- Is this a `RenderBox`, rather than a `RenderSliver`? -/
def isBox : RenderKind → Bool
  | .sliverToBoxAdapter | .fixedExtentList _ => false
  | _ => true

def validateChildProtocol (kind child : RenderKind) : Except Failure Unit :=
  match kind with
  | .viewport .. =>
    if child.isBox then
      throw (.logicError "A RenderViewport can only adopt RenderSliver children")
    else pure ()
  | .sliverToBoxAdapter | .fixedExtentList _ =>
    if child.isBox then pure ()
    else throw (.logicError "This RenderSliver can only adopt RenderBox children")
  | _ =>
    if child.isBox then pure ()
    else throw (.logicError "A RenderBox can only adopt another RenderBox")

def validateChildCount (kind : RenderKind) (count : Nat) : Except Failure Unit :=
  match kind with
  | .semanticsBox .. =>
    if count > 1 then throw (.logicError "RenderSemanticsBox accepts at most one RenderBox child")
    else pure ()
  | .sliverToBoxAdapter =>
    if count > 1 then
      throw (.logicError "RenderSliverToBoxAdapter accepts at most one RenderBox child")
    else pure ()
  | _ => pure ()

end RenderKind

/-! Marking. -/

namespace PaintState

/-- The flag of one object, and its place among those scheduled. -/
def invalidate (paint : PaintState) (id : RenderId) : PaintState :=
  if paint.needsPaint id then paint
  else
    { paint with
      needsPaint := Function.update paint.needsPaint id true
      dirtyPaint := insert id paint.dirtyPaint }

/-- A repaint boundary above one that is to be painted again must be composed again. -/
def recompose (isBoundary : RenderId → Bool) (paint : PaintState) (id : RenderId) : PaintState :=
  if isBoundary id && !paint.needsCompositing id then
    { paint with
      needsCompositing := Function.update paint.needsCompositing id true
      dirtyCompositing := insert id paint.dirtyCompositing }
  else paint

/-- `mark_needs_paint` of the first of a line of objects, each the parent of the one
before: it goes up to the first repaint boundary. -/
def markAlong (isBoundary : RenderId → Bool) : PaintState → List RenderId → PaintState
  | paint, [] => paint
  | paint, id :: above =>
    let paint := paint.invalidate id
    if isBoundary id then
      above.foldl (recompose isBoundary)
        { paint with needsCompositing := Function.update paint.needsCompositing id false }
    else markAlong isBoundary paint above

end PaintState

namespace RenderOwner
variable (owner : RenderOwner) (id : RenderId)

def modify (f : RenderObject → RenderObject) : RenderOwner :=
  { owner with objects := Function.update owner.objects id ((owner.objects id).map f) }

/-- The object and all those above it. -/
def line : List RenderId := ForestEdit.line renderKeys owner.objects owner.nextId id

def isRepaintBoundary : Bool := (owner.objects id).any (·.kind.hasRepaintBoundary)

def markNeedsPaint : RenderOwner :=
  { owner with paint := owner.paint.markAlong owner.isRepaintBoundary (owner.line id) }

/-- The flag of one object, and its place among those scheduled. -/
def requireLayout : RenderOwner :=
  if (owner.objects id).any (·.needsLayout) then owner
  else
    { owner.modify id fun object => { object with needsLayout := true } with
      dirtyLayout := insert id owner.dirtyLayout }

/-- `mark_needs_layout` of the first of a line of objects, each the parent of the one
before. -/
def markLayoutAlong : RenderOwner → List RenderId → RenderOwner
  | owner, [] => owner
  | owner, id :: above => ((owner.requireLayout id).markNeedsPaint id).markLayoutAlong above

def markNeedsLayout : RenderOwner := owner.markLayoutAlong (owner.line id)

end RenderOwner

/-! Construction and destruction. -/

def validateInsets (insets : Insets) : Except Failure Unit :=
  if insets.left < 0 ∨ insets.top < 0 ∨ insets.right < 0 ∨ insets.bottom < 0 then
    throw (.invalidArgument "Padding Insets must be finite and non-negative")
  else pure ()

def validateScrollOffset (scrollOffset : ℚ) : Except Failure Unit :=
  if scrollOffset < 0 then
    throw (.invalidArgument "Viewport scroll offset must be finite and non-negative")
  else pure ()

/-- What the constructors of the classes are called with. -/
inductive RenderArguments where
  | text (text : String) (onActivate : Bool)
  | image (asset : String) (intrinsicSize : Size) (semanticsLabel : String)
  | vStack
  | hStack
  | stack
  | padding (insets : Insets)
  | coloredBox (color : UInt32)
  | actionBox (onActivate stopsPropagation : Bool)
  | semanticsBox (properties : SemanticsProperties) (onActivate : Bool)
  | repaintBoundary
  | viewport (scrollOffset : ℚ)
  | sliverToBoxAdapter
  | fixedExtentList (itemExtent : ℚ)

/-- What the constructors do after that of `RenderObject`. -/
def constructedKind : RenderArguments → Except Failure RenderKind
  | .text text onActivate => pure (.text text onActivate)
  | .image asset intrinsicSize semanticsLabel => do
    checkSize intrinsicSize
    pure (.image asset intrinsicSize semanticsLabel)
  | .vStack => pure .vStack
  | .hStack => pure .hStack
  | .stack => pure .stack
  | .padding insets => do
    validateInsets insets
    pure (.padding insets)
  | .coloredBox color => pure (.coloredBox color)
  | .actionBox onActivate stopsPropagation => pure (.actionBox { onActivate, stopsPropagation })
  | .semanticsBox properties onActivate => pure (.semanticsBox properties onActivate)
  | .repaintBoundary => pure .repaintBoundary
  | .viewport scrollOffset => do
    validateScrollOffset scrollOffset
    pure (.viewport scrollOffset 0)
  | .sliverToBoxAdapter => pure .sliverToBoxAdapter
  | .fixedExtentList itemExtent =>
    if positive : 0 < itemExtent then
      pure (.fixedExtentList { itemExtent, valid := ⟨positive, le_rfl⟩ })
    else throw (.invalidArgument "Sliver fixed item extent must be finite and positive")

/-- Constructs an object; one whose constructor throws has been registered and is forgotten
again. -/
def constructRender (arguments : RenderArguments) : Rendering RenderId := do
  let id ← Run.read RenderOwner.nextId
  Run.change fun owner => { owner with nextId := id + 1 }
  match constructedKind arguments with
  | .error failure => Run.throw failure
  | .ok kind =>
    Run.change fun owner =>
      { owner with
        objects := Function.update owner.objects id (some { id, kind })
        dirtyLayout := insert id owner.dirtyLayout
        paint := { owner.paint with dirtyPaint := insert id owner.paint.dirtyPaint } }
    pure id

/-- The object once this one is gone, which may have been its parent. -/
def RenderObject.orphan (object : RenderObject) (gone : RenderId) : RenderObject :=
  if object.parent = some gone then { object with parent := none } else object

/-- The object without a child. -/
def RenderObject.unchild (object : RenderObject) (gone : RenderId) : RenderObject :=
  { object with children := object.children.filter (· ≠ gone) }

/-- The objects once one of them is gone. -/
def RenderOwner.forget (owner : RenderOwner) (id : RenderId) : RenderOwner :=
  { owner with
    objects := fun other => if other = id then none else (owner.objects other).map (·.orphan id)
    dirtyLayout := owner.dirtyLayout.erase id
    paint :=
      { owner.paint with
        dirtyPaint := owner.paint.dirtyPaint.erase id
        dirtyCompositing := owner.paint.dirtyCompositing.erase id } }

/-- The destructor. -/
def RenderOwner.destroy (owner : RenderOwner) (id : RenderId) : RenderOwner :=
  match (owner.objects id).bind (·.parent) with
  | none => owner.forget id
  | some parent =>
    ((owner.modify parent (·.unchild id)).markNeedsLayout parent).forget id

/-! Adopting children. -/

/-- The checks of one child, in the order of the loop of `set_children`. -/
def RenderOwner.validateChild (owner : RenderOwner) (parent : RenderObject) (seen : List RenderId)
    (id : RenderId) : Except Failure Unit :=
  match owner.objects id with
  | none => throw (.logicError "A RenderObject child must have the same owner")
  | some child => do
    if id = parent.id then
      throw (.logicError "A RenderObject cannot be its own child")
    if child.parent ≠ none ∧ child.parent ≠ some parent.id then
      throw (.logicError "RenderObject cannot have more than one parent")
    parent.kind.validateChildProtocol child.kind
    if id ∈ owner.line parent.id then
      throw (.logicError "A RenderObject tree cannot contain a cycle")
    if id ∈ seen then
      throw (.logicError "A RenderObject child cannot occur more than once")

/-- The loop over the children, of which one may be null. -/
def RenderOwner.validateChildren (owner : RenderOwner) (parent : RenderObject) :
    List RenderId → List (Option RenderId) → Except Failure Unit
  | _, [] => pure ()
  | _, none :: _ => throw (.invalidArgument "A RenderObject child cannot be null")
  | seen, some id :: rest => do
    owner.validateChild parent seen id
    owner.validateChildren parent (id :: seen) rest

/-- The links of an object once the given one has these children. -/
def RenderObject.relink (object : RenderObject) (parent : RenderId) (children : List RenderId) :
    RenderObject :=
  if object.id = parent then { object with children }
  else if object.id ∈ children then { object with parent := some parent }
  else object.orphan parent

/-- The links of all objects once an object has these children. -/
def RenderOwner.adopt (owner : RenderOwner) (parent : RenderId) (children : List RenderId) :
    RenderOwner :=
  { owner with objects := fun id => (owner.objects id).map (·.relink parent children) }

/-- `set_children`. -/
def setRenderChildren (id : RenderId) (children : List (Option RenderId)) : Rendering Unit := do
  match ← Run.read (·.objects id) with
  | none => Run.diverge
  | some object =>
    if object.children.map some = children then pure ()
    else
      Run.resume (object.kind.validateChildCount children.length)
      Run.resume (← Run.read fun owner => owner.validateChildren object [] children)
      Run.change fun owner => (owner.adopt id children.reduceOption).markNeedsLayout id

/-! Settings. -/

/-- What a setter has to mark. -/
inductive Invalidation where
  | nothing
  | paint
  | layout
  deriving DecidableEq, Repr

/-- The setters of the classes. -/
inductive RenderSetting where
  | text (text : String)
  | onActivate (present : Bool)
  | image (asset : String) (intrinsicSize : Size) (semanticsLabel : String)
  | insets (insets : Insets)
  | color (color : UInt32)
  | stopsPropagation (value : Bool)
  | semanticsEnabled (value : Bool)
  | semanticsFocus (focusable : Bool) (focused : Option Nat)
  | semantics (properties : SemanticsProperties) (onActivate : Bool)
  | scrollOffset (scrollOffset : ℚ)
  | itemExtent (itemExtent : ℚ)
  | cacheExtent (cacheExtent : ℚ)
  | lazyModel (logicalChildCount revision : Nat)
  | mountedRange (first count revision : Nat)
  | clearLazyModel

namespace FixedExtentList

def setItemExtent (list : FixedExtentList) (itemExtent : ℚ) :
    Except Failure (FixedExtentList × Invalidation) :=
  if positive : 0 < itemExtent then
    if list.itemExtent = itemExtent then pure (list, .nothing)
    else pure ({ list with itemExtent, valid := ⟨positive, list.valid.2⟩ }, .layout)
  else throw (.invalidArgument "Sliver fixed item extent must be finite and positive")

def setCacheExtent (list : FixedExtentList) (cacheExtent : ℚ) :
    Except Failure (FixedExtentList × Invalidation) :=
  if enough : 0 ≤ cacheExtent then
    if list.cacheExtent = cacheExtent then pure (list, .nothing)
    else pure ({ list with cacheExtent, valid := ⟨list.valid.1, enough⟩ }, .layout)
  else throw (.invalidArgument "Sliver cache extent must be finite and non-negative")

def setLazyModel (list : FixedExtentList) (logicalChildCount revision : Nat) :
    FixedExtentList × Invalidation :=
  if list.isLazy ∧ list.logicalChildCount = logicalChildCount ∧ list.modelRevision = revision then
    (list, .nothing)
  else
    ({ list with isLazy := true, logicalChildCount, modelRevision := revision,
                 requestedChildRange := none }, .layout)

def setMountedRange (list : FixedExtentList) (first count revision : Nat) :
    Except Failure (FixedExtentList × Invalidation) :=
  if ¬ list.isLazy ∨ revision ≠ list.modelRevision ∨ first > list.logicalChildCount ∨
      count > list.logicalChildCount - first then
    throw (.logicError "Mounted Sliver range does not match the lazy model")
  else
    pure ({ list with firstMountedIndex := first, mountedChildCount := count,
                      mountedRevision := revision, requestedChildRange := none }, .layout)

def clearLazyModel (list : FixedExtentList) : FixedExtentList × Invalidation :=
  if list.isLazy then
    ({ list with isLazy := false, logicalChildCount := 0, firstMountedIndex := 0,
                 mountedChildCount := 0, modelRevision := 0, mountedRevision := 0,
                 requestedChildRange := none }, .layout)
  else (list, .nothing)

end FixedExtentList

/-- What a setter makes of the fields, and what it marks; a class that lacks it is left
alone. -/
def applySetting : RenderSetting → RenderKind → Except Failure (RenderKind × Invalidation)
  | .text text, .text old onActivate =>
    pure (if old = text then (.text old onActivate, .nothing) else (.text text onActivate, .layout))
  | .onActivate present, .text text _ => pure (.text text present, .nothing)
  | .onActivate present, .actionBox action =>
    pure (.actionBox { action with onActivate := present }, .nothing)
  | .image asset intrinsicSize semanticsLabel, .image oldAsset oldSize _ => do
    checkSize intrinsicSize
    pure (.image asset intrinsicSize semanticsLabel,
      if oldSize ≠ intrinsicSize then .layout else if oldAsset ≠ asset then .paint else .nothing)
  | .insets insets, .padding old => do
    validateInsets insets
    pure (.padding insets, if old = insets then .nothing else .layout)
  | .color color, .coloredBox old =>
    pure (.coloredBox color, if old = color then .nothing else .paint)
  | .stopsPropagation value, .actionBox action =>
    pure (.actionBox { action with stopsPropagation := value }, .nothing)
  | .semanticsEnabled value, .actionBox action =>
    pure (.actionBox { action with semanticsEnabled := value }, .nothing)
  | .semanticsFocus focusable focused, .actionBox action =>
    pure (.actionBox { action with semanticsFocusable := focusable, semanticsFocused := focused },
      .nothing)
  | .semantics properties onActivate, .semanticsBox .. =>
    pure (.semanticsBox properties onActivate, .nothing)
  | .scrollOffset scrollOffset, .viewport old maxScrollExtent => do
    validateScrollOffset scrollOffset
    pure (.viewport scrollOffset maxScrollExtent,
      if old = scrollOffset then .nothing else .layout)
  | .itemExtent itemExtent, .fixedExtentList list =>
    (list.setItemExtent itemExtent).map fun (list, marks) => (.fixedExtentList list, marks)
  | .cacheExtent cacheExtent, .fixedExtentList list =>
    (list.setCacheExtent cacheExtent).map fun (list, marks) => (.fixedExtentList list, marks)
  | .lazyModel count revision, .fixedExtentList list =>
    let (list, marks) := list.setLazyModel count revision
    pure (.fixedExtentList list, marks)
  | .mountedRange first count revision, .fixedExtentList list =>
    (list.setMountedRange first count revision).map fun (list, marks) =>
      (.fixedExtentList list, marks)
  | .clearLazyModel, .fixedExtentList list =>
    let (list, marks) := list.clearLazyModel
    pure (.fixedExtentList list, marks)
  | _, kind => pure (kind, .nothing)

/-- What is marked for an invalidation. -/
def RenderOwner.mark (owner : RenderOwner) (id : RenderId) : Invalidation → RenderOwner
  | .nothing => owner
  | .paint => owner.markNeedsPaint id
  | .layout => owner.markNeedsLayout id

/-- Calls a setter. -/
def configureRender (id : RenderId) (setting : RenderSetting) : Rendering Unit := do
  match ← Run.read (·.objects id) with
  | none => Run.diverge
  | some object =>
    let (kind, marks) ← Run.resume (applySetting setting object.kind)
    Run.change fun owner => (owner.modify id fun object => { object with kind }).mark id marks

end Dui
