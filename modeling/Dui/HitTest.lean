import Dui.RenderLayout

/-! Hit testing: the objects under a position, from the one hit up to the root. -/
namespace Dui

structure HitTestEntry where
  target : RenderId
  localPosition : Offset
  deriving DecidableEq, Repr

/-- `HitTestResult`: its path. -/
abbrev HitTestResult := List HitTestEntry

/-- Whether something is hit, and the path with what was added to it. There is no result where
an object is asked that does not exist. -/
abbrev HitTesting := HitTestResult → Option (Bool × HitTestResult)

namespace HitTesting

def undefined : HitTesting := fun _ => none

/-- Nothing is hit. -/
def miss : HitTesting := fun result => some (false, result)

/-- `HitTestResult::add`, for an object that is hit. -/
def add (target : RenderId) (localPosition : Offset) : HitTesting := fun result =>
  some (true, result ++ [⟨target, localPosition⟩])

/-- Goes on with the one if the first hits something and with the other if not. -/
def branch (first hit missed : HitTesting) : HitTesting := fun result => do
  let (found, result) ← first result
  if found then hit result else missed result

end HitTesting

open HitTesting

/-- The loop over children: the first of the list that is hit. -/
def scanChildren (hitTest : RenderId → Offset → HitTesting) (offsetOf : RenderId → Offset)
    (position : Offset) : List RenderId → HitTesting
  | [] => miss
  | child :: rest => branch (hitTest child (position - offsetOf child)) (fun result =>
      some (true, result)) (scanChildren hitTest offsetOf position rest)

/-- `hit_test_self`. -/
def RenderKind.hitTestSelf : RenderKind → Bool
  | .text .. | .image .. | .actionBox _ => true
  | _ => false

namespace RenderOwner
variable (owner : RenderOwner)

/-- The `offset` of the parent data. -/
def offsetOf (id : RenderId) : Offset := ((owner.objects id).map (·.offset)).getD {}

/-- `RenderBox::hit_test_protocol`, given how children are tested. That of `RenderViewport`
is the same for an object that is not hit itself. -/
def hitTestBox (hitTest : RenderId → Offset → HitTesting) (id : RenderId) (object : RenderObject)
    (position : Offset) : HitTesting :=
  if object.measure.size.contains position then
    branch (scanChildren hitTest owner.offsetOf position object.children.reverse)
      (add id position) (if object.kind.hitTestSelf then add id position else miss)
  else miss

/-- The check of `RenderSliver::hit_test_protocol`. -/
def sliverContains (object : RenderObject) (position : Offset) : Bool :=
  match object.constraints with
  | some (.sliver constraints) =>
    0 ≤ position.x && position.x < constraints.crossAxisExtent && 0 ≤ position.y &&
      position.y < object.measure.geometry.hitTestExtent
  | _ => false

/-- `RenderSliver::hit_test_protocol` over given children. -/
def hitTestSliver (hitTest : RenderId → Offset → HitTesting) (id : RenderId)
    (object : RenderObject) (children : List RenderId) (position : Offset) : HitTesting :=
  if sliverContains object position then
    branch (scanChildren hitTest owner.offsetOf position children.reverse) (add id position) miss
  else miss

/-- `RenderSliverFixedExtentList::hit_test_protocol`: the one child at the position. -/
def hitTestFixedExtentList (hitTest : RenderId → Offset → HitTesting) (id : RenderId)
    (object : RenderObject) (list : FixedExtentList) (position : Offset) : HitTesting :=
  let visibleEnd := list.firstVisibleIndex + list.visibleChildCount
  let childEnd := list.firstVisibleChild + list.visibleChildCount
  match object.constraints with
  | some (.sliver constraints) =>
    if object.needsLayout || list.firstVisibleIndex > visibleEnd ||
        childEnd > object.children.length || !sliverContains object position then miss
    else
      let candidate := itemAtViewportPosition constraints.scrollOffset position.y list.itemExtent
        (list.logicalCount object.children.length)
      if candidate < list.firstVisibleIndex ∨ candidate ≥ visibleEnd then miss
      -- the index would wrap around to one beyond every child
      else if list.isLazy ∧ candidate < list.firstMountedIndex then miss
      else
        let childIndex := if list.isLazy then candidate - list.firstMountedIndex else candidate
        if childIndex ≥ childEnd then miss
        else
          match object.children[childIndex]? with
          | none => undefined
          | some child =>
            branch (hitTest child ⟨position.x, position.y - (owner.offsetOf child).y⟩)
              (add id position) miss
  | _ => miss

/-- `RenderObject::hit_test`. -/
def hitTest : Nat → RenderId → Offset → HitTesting
  | 0, _, _ => undefined
  | fuel + 1, id, position =>
    match owner.objects id with
    | none => undefined
    | some object =>
      match object.kind with
      | .sliverToBoxAdapter => owner.hitTestSliver (hitTest fuel) id object object.children position
      | .fixedExtentList list => owner.hitTestFixedExtentList (hitTest fuel) id object list position
      | _ => owner.hitTestBox (hitTest fuel) id object position

/-- `RenderOwner::hit_test_path`. No object is deeper than there are objects. -/
def hitTestPath (position : Offset) : Option HitTestResult :=
  (owner.hitTest owner.nextId owner.root position []).map (·.2)

end RenderOwner

/-! Activation. -/

namespace RenderKind

/-- `has_activation_handler`. -/
def hasActivationHandler : RenderKind → Bool
  | .text _ onActivate | .semanticsBox _ onActivate => onActivate
  | .actionBox action => action.onActivate
  | _ => false

/-- What `handle_activate` returns: whether the activation goes no further. -/
def stopsPropagation : RenderKind → Bool
  | .actionBox action => action.stopsPropagation
  | .semanticsBox _ onActivate => onActivate
  | _ => false

end RenderKind

end Dui
