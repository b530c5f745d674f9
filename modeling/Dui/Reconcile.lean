import Mathlib.Data.List.Sort
import Dui.BuildModel
import Dui.Effect

/-! The algorithms of the build layer: running a build, reconciling a view with the
element mounted for it, flushing dirty elements, and producing a frame. The
recursive ones take fuel, and a run that needs more of it does not come to an end. -/
namespace Dui
open Effect

variable {α β : Type}

/-- A computation of the build layer. -/
abbrev Building (α β : Type) := Run (BuildOwner α) Failure β

/-- `reconcile_child`: what the slot holds afterwards, and whether the update threw. -/
abbrev Reconciler (α : Type) :=
  Option ElementId → View α → Option ElementId → Key → Building α (ElementId × Except Failure Unit)

/-- `BuildOwner::state`. -/
def stateOf (owner : BuildOwner α) (handle : StateHandle) : Except Failure α :=
  match owner.resolve handle.element handle.generation with
  | none => .error (.logicError "StateHandle refers to an unmounted Element")
  | some element =>
    match element.state handle.slot with
    | none => .error (.logicError "StateHandle has an invalid state slot or type")
    | some value => .ok value

/-- `StateHandle::set`. -/
def setState [DecidableEq α] (handle : StateHandle) (value : α) : Building α Unit := do
  let current ← Run.read (stateOf · handle)
  let current ← Run.resume current
  if handle.comparable ∧ current = value then pure ()
  else Run.change (·.writeState handle value)

/-- `BuildContext::observe` by the build that is active, if one is, and the value.
Using a signal that is gone has no defined outcome. -/
def readDependency (dependency : Dependency) : Building α α := fun owner =>
  match owner.sources dependency with
  | none => none
  | some source =>
    match owner.active with
    | none => some (.ok source.value, owner)
    | some id =>
      some (.ok source.value,
        (owner.observe id dependency).noteRead id (.dependency dependency) source.value)

/-- `StateHandle::get`; a read of the active element's own slot is noted. -/
def readState (handle : StateHandle) : Building α α := fun owner =>
  match stateOf owner handle with
  | .error failure => some (.error failure, owner)
  | .ok value =>
    if owner.active = some handle.element then
      some (.ok value, owner.noteRead handle.element (.slot handle.slot) value)
    else some (.ok value, owner)

/-- Runs the code of a build. Using a build context where there is none has no
defined outcome. -/
def runBuild [DecidableEq α] : Build α → Building α (View α)
  | .done view => pure view
  | .throw failure => Run.throw failure
  | .get signal next => do
    let value ← readDependency (.signal signal)
    runBuild (next value)
  | .set signal value next => do
    Run.change (·.write (.signal signal) value)
    runBuild next
  | .createSignal comparable value next => do
    let signal ← Run.read (·.nextSignal)
    Run.change (·.createSignal comparable value)
    runBuild (next signal)
  | .destroySignal signal next => do
    Run.change (·.dropSource (.signal signal))
    runBuild next
  | .state slot comparable initial next => do
    match ← Run.read fun owner => owner.active.bind fun id =>
        (owner.registry id).map fun element => (id, element.generation) with
    | none => Run.diverge
    | some (id, generation) =>
      Run.change (·.declareState id slot initial)
      runBuild (next ⟨id, generation, slot, comparable⟩)
  | .getState handle next => do
    let value ← readState handle
    runBuild (next value)
  | .setState handle value next => do
    setState handle value
    runBuild next
  | .environment type next => do
    match ← Run.read (·.active) with
    | none => Run.diverge
    | some id =>
      match ← Run.read fun owner => (owner.registry id).bind fun element =>
          owner.findEnvironment type element.depth id with
      | none => Run.throw (.logicError "Requested Environment value was not provided")
      | some provider =>
        let value ← readDependency (.environment provider type)
        runBuild (next value)

/-- `BuildScope`: the element's context is active while the computation runs. -/
def withScope (id : ElementId) (run : Building α β) : Building α β := do
  let previous ← Run.read (·.active)
  Run.change fun owner => { owner with active := some id }
  let outcome ← Run.attempt run
  Run.change fun owner => { owner with active := previous }
  Run.resume outcome

/-- `BuildOwner::unmount`. -/
def unmount : Nat → ElementId → Building α Unit
  | 0, _ => Run.diverge
  | fuel + 1, id => do
    match ← Run.read (·.registry id) with
    | none => pure ()
    | some element =>
      Run.each (unmount fuel) element.children
      Run.each (unmount fuel) element.lazyKeptAliveChildren
      Run.change (·.removeElement id)

def childrenOf (id : ElementId) : Building α (List ElementId) :=
  Run.read fun owner => match owner.registry id with
    | none => []
    | some element => element.children

def setChildren (id : ElementId) (children : List ElementId) : Building α Unit :=
  Run.change (·.updateElement id fun element => { element with children })

/-- `update_static_children`, from the children already reconciled on. -/
def updateStaticChildren (reconcile : Reconciler α) (fuel : Nat) (id : ElementId)
    (done : List ElementId) : List (View α) → List ElementId → Building α Unit
  | [], rest => do
    Run.each (unmount fuel) rest.reverse
    setChildren id done
  | view :: views, rest => do
    let (child, outcome) ← reconcile rest.head? view (some id) .none
    setChildren id (done ++ child :: rest.tail)
    Run.resume outcome
    updateStaticChildren reconcile fuel id (done ++ [child]) views rest.tail

/-- Reconciles the first child of an element. -/
def updateFirstChild (reconcile : Reconciler α) (id : ElementId) (view : View α) :
    Building α ElementId := do
  let children ← childrenOf id
  let (child, outcome) ← reconcile children.head? view (some id) .none
  setChildren id (child :: children.tail)
  Run.resume outcome
  pure child

/-- Reconciles the first child of an element and unmounts the others. -/
def updateOnlyChild (reconcile : Reconciler α) (fuel : Nat) (id : ElementId) (view : View α) :
    Building α Unit := do
  let children ← childrenOf id
  let child ← updateFirstChild reconcile id view
  Run.each (unmount fuel) children.tail.reverse
  setChildren id [child]

/-- Unmounts the first child of an element, which is its only one. -/
def dropFirstChild (fuel : Nat) (id : ElementId) : Building α Unit := do
  match ← childrenOf id with
  | [] => pure ()
  | child :: _ =>
    unmount fuel child
    setChildren id []

/-- Runs the builder of a `ForEach` on its items. -/
def buildItems [DecidableEq α] (program : Program α) (type : TypeToken)
    (pending : List (Key × View α)) : List (Key × α) → Building α (List (Key × View α))
  | [] => pure pending
  | (key, item) :: rest => do
    if pending.any (·.1 = key) then
      Run.throw (.logicError ("ForEach contains a duplicate key: " ++ key.toString))
    else do
      let view ← runBuild (program.item type item)
      buildItems program type (pending ++ [(key, view)]) rest

/-- An element that can be reused for a view under a key. -/
def fits (owner : BuildOwner α) (view : View α) (key : Key) (id : ElementId) : Bool :=
  match owner.registry id with
  | none => false
  | some element => element.viewType = view.token && element.key = key

/-- The loop of `ForEach`: reconciles every item with the child of its key. A throw
unmounts all children. -/
def reconcileItems (reconcile : Reconciler α) (fuel : Nat) (id : ElementId)
    (next previous : List ElementId) :
    List (Key × View α) → Building α (List ElementId × List ElementId)
  | [] => pure (next, previous)
  | (key, view) :: rest => do
    let found ← Run.read fun owner => previous.find? (fits owner view key)
    let (child, outcome) ← reconcile found view (some id) key
    let remaining := match found with
      | none => previous
      | some found => previous.erase found
    match outcome with
    | .error failure =>
      unmount fuel child
      Run.each (unmount fuel) remaining
      Run.each (unmount fuel) next
      setChildren id []
      Run.throw failure
    | .ok () => reconcileItems reconcile fuel id (next ++ [child]) remaining rest

def updateForEach [DecidableEq α] (program : Program α) (reconcile : Reconciler α) (fuel : Nat)
    (id : ElementId) (type : TypeToken) (items : List (Key × α)) : Building α Unit := do
  let pending ← buildItems program type [] items
  let previous ← childrenOf id
  setChildren id []
  let (next, previous) ← reconcileItems reconcile fuel id [] previous pending
  Run.each (unmount fuel) previous
  setChildren id next

/-- The rebuild function of a component element. -/
def rebuild [DecidableEq α] (program : Program α) (reconcile : Reconciler α) (fuel : Nat)
    (id : ElementId) : Building α Unit := do
  Run.change (·.clearDependencies id)
  withScope id do
    match ← Run.read fun owner => (owner.registry id).bind fun element =>
        element.descriptor.map fun descriptor => (element.viewType.2, descriptor) with
    | none => Run.diverge
    | some (type, descriptor) =>
      let view ← runBuild (program.build type descriptor)
      updateOnlyChild reconcile fuel id view

/-- `update_view` of a component: an equal one is left alone unless it was dirty. -/
def updateComponent [DecidableEq α] (program : Program α) (reconcile : Reconciler α) (fuel : Nat)
    (id : ElementId) (type : TypeToken) (descriptor : α) : Building α Unit := do
  let equivalent ← Run.read fun owner => program.comparable type &&
    (owner.registry id).any fun element => element.descriptor.any (program.same type · descriptor)
  Run.change (·.updateElement id fun element => { element with descriptor := some descriptor })
  let rebuildingDirty ← Run.read fun owner => (owner.registry id).any (·.rebuildingDirty)
  if equivalent ∧ ¬ rebuildingDirty then pure ()
  else do
    Run.change (·.updateElement id fun element => { element with rebuild := true })
    rebuild program reconcile fuel id

def keyOf (owner : BuildOwner α) (id : ElementId) : Key :=
  match owner.registry id with
  | none => .none
  | some element => element.key

/-- Sets the children kept alive outside the visible range. -/
def setKeptAlive (id : ElementId) (lazyKeptAliveChildren : List ElementId) : Building α Unit :=
  Run.change (·.updateElement id fun element => { element with lazyKeptAliveChildren })

/-- `enforce_lazy_keep_alive_limit`: the oldest go first. -/
def enforceLazyKeepAliveLimit (fuel : Nat) (id : ElementId) : Building α Unit := do
  match ← Run.read (·.registry id) with
  | none => pure ()
  | some element =>
    match element.lazyModel.bind (·.keepAliveLimit) with
    | none => pure ()
    | some limit =>
      let excess := element.lazyKeptAliveChildren.length - limit
      Run.each (unmount fuel) (element.lazyKeptAliveChildren.take excess)
      setKeptAlive id (element.lazyKeptAliveChildren.drop excess)

/-- `update_view` of a list over a `LazyForEach`: the items are built when layout asks. -/
def updateLazyList (fuel : Nat) (id : ElementId) (model : LazyModel α) : Building α Unit := do
  Run.change (·.updateElement id fun element =>
    { element with lazyModel := some model, lazyRevision := element.lazyRevision + 1 })
  let keptAlive ← Run.read fun owner => match owner.registry id with
    | none => []
    | some element => element.lazyKeptAliveChildren
  let keeps ← Run.read fun owner child => model.keepAliveKeys.contains (keyOf owner child)
  Run.each (unmount fuel) (keptAlive.filter (!keeps ·))
  setKeptAlive id (keptAlive.filter keeps)
  enforceLazyKeepAliveLimit fuel id

/-- `update_view`. -/
def updateView [DecidableEq α] (program : Program α) (reconcile : Reconciler α) (fuel : Nat)
    (id : ElementId) : View α → Building α Unit
  | .component type descriptor => updateComponent program reconcile fuel id type descriptor
  | .leaf _ rejected value => do
    Run.change (·.updateElement id fun element => { element with debugValue := some value })
    match rejected with
    | some failure => Run.throw failure
    | none => do
      let children ← childrenOf id
      Run.each (unmount fuel) children.reverse
      setChildren id []
  | .group _ (some failure) _ => Run.throw failure
  | .group _ none views => do
    let children ← childrenOf id
    updateStaticChildren reconcile fuel id [] views children
  | .single _ (some failure) _ => Run.throw failure
  | .single _ none child => do
    let _ ← updateFirstChild reconcile id child
  | .environment _ values child => do
    Run.each (fun (type, value) => Run.change (·.setEnvironment program id type value)) values
    updateOnlyChild reconcile fuel id child
  | .optional _ none => dropFirstChild fuel id
  | .optional _ (some child) => do
    let _ ← updateFirstChild reconcile id child
  | .choice _ branch child => do
    let switched ← Run.read fun owner => (owner.registry id).any fun element =>
      element.activeBranch.any (· ≠ branch)
    if switched then dropFirstChild fuel id
    Run.change (·.updateElement id fun element => { element with activeBranch := some branch })
    let _ ← updateFirstChild reconcile id child
  | .forEach type items => updateForEach program reconcile fuel id type items
  | .lazyList _ (some failure) _ _ _ => Run.throw failure
  | .lazyList _ none items keepAliveKeys keepAliveLimit =>
    updateLazyList fuel id ⟨items, keepAliveKeys, keepAliveLimit⟩

/-- `reconcile_child`. -/
def reconcileChild [DecidableEq α] (program : Program α) : Nat → Reconciler α
  | 0, _, _, _, _ => Run.diverge
  | fuel + 1, slot, view, parent, key => do
    let reusable ← Run.read fun owner => slot.filter (fits owner view key)
    let id ← match reusable with
      | some id => pure id
      | none => do
        match slot with
        | none => pure ()
        | some old => unmount fuel old
        let id ← Run.read (·.nextId)
        Run.change (·.makeElement view.token key parent)
        pure id
    Run.change (·.beginUpdate id)
    let outcome ← Run.attempt (updateView program (reconcileChild program fuel) fuel id view)
    Run.change (·.endUpdate id)
    pure (id, outcome)

private def reentrant : Failure :=
  .logicError "BuildOwner does not allow reentrant render or flush"

/-- Runs an operation of the owner with `reconciling_` set. -/
def exclusively (refusal : Failure) (run : Building α β) : Building α β := do
  if ← Run.read (·.reconciling) then Run.throw refusal
  else do
    Run.change fun owner => { owner with reconciling := true }
    let outcome ← Run.attempt run
    Run.change fun owner => { owner with reconciling := false }
    Run.resume outcome

/-- `BuildOwner::render`. -/
def render [DecidableEq α] (program : Program α) (fuel : Nat) (view : View α) : Building α Unit :=
  exclusively reentrant do
    let root ← Run.read (·.root)
    let (id, outcome) ← reconcileChild program fuel root view none .none
    Run.change fun owner => { owner with root := some id }
    Run.resume outcome

/-- The dirty elements in the order a flush visits them. -/
def pendingOf (program : Program α) (owner : BuildOwner α) : List ElementId :=
  let depth := fun id => match owner.registry id with
    | none => 0
    | some element => element.depth
  (program.arrange owner.dirty).insertionSort fun first second => depth first ≤ depth second

/-- A flush rebuilds an element of the pass if it is still mounted and dirty. -/
def needsRebuild (owner : BuildOwner α) (id : ElementId) : Bool :=
  (owner.registry id).any fun element => element.dirty && element.rebuild

def flushElement [DecidableEq α] (program : Program α) (fuel : Nat) (id : ElementId) :
    Building α Unit := do
  if ← Run.read (needsRebuild · id) then do
    Run.change (·.updateElement id fun element => { element with dirty := false })
    rebuild program (reconcileChild program fuel) fuel id
  else pure ()

/-- The loop of `BuildOwner::flush_with_timeline`. -/
def flushLoop [DecidableEq α] (program : Program α) (fuel : Nat) : Nat → Building α Unit
  | 0 => Run.diverge
  | rounds + 1 => do
    let pending ← Run.read (pendingOf program)
    if pending.isEmpty then pure ()
    else do
      Run.change fun owner => { owner with dirty := [] }
      Run.each (flushElement program fuel) pending
      flushLoop program fuel rounds

/-- `BuildOwner::flush`. -/
def flush [DecidableEq α] (program : Program α) (fuel : Nat) : Building α Unit :=
  exclusively reentrant (flushLoop program fuel fuel)

end Dui
