import Dui.Reconcile
import Dui.FixedExtentList

/-! Producing a frame: the owner flushes, lays the render tree out, and builds the items
of lazy lists as layout asks for them, until it asks for nothing more. What layout and
compositing come to is given from outside; the items are built here. -/
namespace Dui
open Effect

variable {α : Type}

/-- Layout and compositing during one frame. After each round of layout, the lists say
what they need (`requested_child_range`). -/
structure Renderer (α : Type) where
  layout : Nat → BuildOwner α → Except Failure (ElementId → Option ChildRange)
  composite : BuildOwner α → Except Failure Unit

/-- The request of an element, if it is a lazy list and the request is for its model. -/
def requestOf (requests : ElementId → Option ChildRange) (id : ElementId) (element : Element α) :
    Option ChildRange :=
  if element.lazyModel.isSome then
    (requests id).filter (·.revision = element.lazyRevision)
  else none

/-- `has_pending_lazy_children`, below an element. -/
def hasPendingLazyChildren (requests : ElementId → Option ChildRange) :
    Nat → ElementId → Building α Bool
  | 0, _ => Run.diverge
  | fuel + 1, id => do
    match ← Run.read (·.registry id) with
    | none => pure false
    | some element =>
      if (requestOf requests id element).isSome then pure true
      else Run.anyOf (hasPendingLazyChildren requests fuel) element.children

/-- Runs the item builder of a lazy list. No build context is active here. -/
def buildLazyItems [DecidableEq α] (program : Program α) (type : TypeToken)
    (pending : List (Key × View α)) : List (Key × α) → Building α (List (Key × View α))
  | [] => pure pending
  | (key, item) :: rest => do
    let view ← runBuild (program.item type item)
    buildLazyItems program type (pending ++ [(key, view)]) rest

/-- The children of a lazy list: those made so far, and those from before that are left. -/
structure LazyChildren where
  next : List ElementId
  previous : List ElementId
  keptAlive : List ElementId

/-- Takes the child to be reused for an item out of the previous ones, or out of those
kept alive. -/
def LazyChildren.take (children : LazyChildren) (reusable : ElementId → Bool) :
    Option ElementId × LazyChildren :=
  match children.previous.find? reusable with
  | some found => (some found, { children with previous := children.previous.erase found })
  | none =>
    match children.keptAlive.find? reusable with
    | some found => (some found, { children with keptAlive := children.keptAlive.erase found })
    | none => (none, children)

/-- The loop of `realize_lazy_fixed_extent_range`. A throw unmounts all children. -/
def realizeItems (reconcile : Reconciler α) (fuel : Nat) (id : ElementId)
    (children : LazyChildren) : List (Key × View α) → Building α LazyChildren
  | [] => pure children
  | (key, view) :: rest => do
    let (found, children) ← Run.read fun owner => children.take (fits owner view key)
    let (child, outcome) ← reconcile found view (some id) key
    match outcome with
    | .error failure =>
      unmount fuel child
      Run.each (unmount fuel) children.previous
      Run.each (unmount fuel) children.keptAlive
      Run.each (unmount fuel) children.next
      setChildren id []
      setKeptAlive id []
      Run.throw failure
    | .ok () =>
      realizeItems reconcile fuel id { children with next := children.next ++ [child] } rest

/-- `retain_or_unmount` over what is left, from the children already retained on. -/
def retainOrUnmount (fuel : Nat) (keepAliveKeys : List Key) (retained : List ElementId) :
    List ElementId → Building α (List ElementId)
  | [] => pure retained
  | child :: rest => do
    if keepAliveKeys.contains (← Run.read (keyOf · child)) then
      retainOrUnmount fuel keepAliveKeys (retained ++ [child]) rest
    else do
      unmount fuel child
      retainOrUnmount fuel keepAliveKeys retained rest

/-- `realize_lazy_fixed_extent_range`. -/
def realizeRange [DecidableEq α] (program : Program α) (fuel : Nat) (id : ElementId)
    (type : TypeToken) (model : LazyModel α) (keptAlive : List ElementId) (range : ChildRange) :
    Building α Unit := do
  if model.items.length < range.upTo ∨ range.upTo < range.first then
    Run.throw (.logicError "Lazy Sliver requested an invalid child range")
  else do
    let items := (model.items.take range.upTo).drop range.first
    let pending ← buildLazyItems program type [] items
    let previous ← childrenOf id
    setChildren id []
    setKeptAlive id []
    let children ← realizeItems (reconcileChild program fuel) fuel id ⟨[], previous, keptAlive⟩
      pending
    let retained ← retainOrUnmount fuel model.keepAliveKeys [] children.keptAlive
    let retained ← retainOrUnmount fuel model.keepAliveKeys retained children.previous
    setChildren id children.next
    setKeptAlive id retained
    enforceLazyKeepAliveLimit fuel id

/-- `realize_lazy_children`, below an element: says whether any list was served. -/
def realizeLazyChildren [DecidableEq α] (program : Program α)
    (requests : ElementId → Option ChildRange) : Nat → ElementId → Building α Bool
  | 0, _ => Run.diverge
  | fuel + 1, id => do
    match ← Run.read (·.registry id) with
    | none => pure false
    | some element =>
      let realized ← match requestOf requests id element, element.lazyModel with
        | some range, some model => do
          realizeRange program fuel id element.viewType.2 model element.lazyKeptAliveChildren range
          pure true
        | _, _ => pure false
      let children ← childrenOf id
      let below ← Run.anyOf (realizeLazyChildren program requests fuel) children
      pure (realized || below)

private def reentrantRealization : Failure :=
  .logicError "BuildOwner does not allow reentrant lazy realization"

/-- Lays the tree out: the requests of the lazy lists, if one of them is to be served. -/
def layOut (renderer : Renderer α) (fuel rounds : Nat) :
    Building α (Option (ElementId → Option ChildRange)) := do
  let requests ← Run.read (renderer.layout rounds)
  let requests ← Run.resume requests
  match ← Run.read (·.root) with
  | none => pure none
  | some root =>
    if ← hasPendingLazyChildren requests fuel root then pure (some requests) else pure none

def compositeFrame (renderer : Renderer α) : Building α Unit := do
  let composited ← Run.read renderer.composite
  Run.resume composited

/-- Serves the requests of the lazy lists. -/
def realizeRequests [DecidableEq α] (program : Program α) (fuel : Nat)
    (requests : ElementId → Option ChildRange) : Building α Unit := do
  let realized ← exclusively reentrantRealization do
    match ← Run.read (·.root) with
    | none => pure false
    | some root => realizeLazyChildren program requests fuel root
  if realized then pure ()
  else Run.throw (.logicError "Lazy child request disappeared during realization")

/-- The loop of `BuildOwner::layer_frame`, from its layout on, with the flush it uses and
the rounds that are left. -/
def frameLoop [DecidableEq α] (program : Program α) (renderer : Renderer α)
    (flush : Building α Unit) (fuel : Nat) : Nat → Building α Unit
  | 0 => do
    match ← layOut renderer fuel 0 with
    | none => compositeFrame renderer
    | some _ => Run.throw (.logicError "Lazy child layout did not stabilize")
  | rounds + 1 => do
    match ← layOut renderer fuel (rounds + 1) with
    | none => compositeFrame renderer
    | some requests =>
      realizeRequests program fuel requests
      flush
      frameLoop program renderer flush fuel rounds

/-- The most rounds of realization in one frame. -/
def maxRealizationRounds : Nat := 16

/-- `BuildOwner::layer_frame`, with the flush it uses. -/
def layerFrameWith [DecidableEq α] (program : Program α) (renderer : Renderer α)
    (flush : Building α Unit) (fuel : Nat) : Building α Unit := do
  if ← Run.read (·.framing) then
    Run.throw (.logicError "BuildOwner does not allow reentrant frame production")
  else do
    Run.change fun owner => { owner with framing := true }
    let outcome ← Run.attempt do
      flush
      frameLoop program renderer flush fuel maxRealizationRounds
    Run.change fun owner => { owner with framing := false }
    Run.resume outcome

/-- `BuildOwner::layer_frame`. -/
def layerFrame [DecidableEq α] (program : Program α) (renderer : Renderer α) (fuel : Nat) :
    Building α Unit :=
  layerFrameWith program renderer (flush program fuel) fuel

end Dui
