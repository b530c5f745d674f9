import Dui.Foundation

/-! What the build layer works on: views as the application describes them, the
builds that produce them, the elements they are mounted as, and the owner that knows
which elements are dirty. Elements live in the owner's registry and name each other
by identity. -/
namespace Dui

abbrev ElementId := Nat

abbrev TypeToken := Nat

abbrev SignalId := Nat

inductive Key where
  | none
  | signed (value : Int)
  | unsigned (value : Nat)
  | text (value : String)
  deriving DecidableEq, Repr

def Key.toString : Key → String
  | .none => "<none>"
  | .signed value => ToString.toString value
  | .unsigned value => ToString.toString value
  | .text value => value

/-- The shapes of views, which their C++ types tell apart. -/
inductive ViewKind where
  | component
  | leaf
  | group
  | single
  | environment
  | optional
  | choice
  | forEach
  | lazyList
  deriving DecidableEq, Repr

/-- A view. The token stands for its C++ type; views that differ in nothing the build
layer looks at share a constructor. -/
inductive View (α : Type) where
  | component (type : TypeToken) (descriptor : α)
  /-- `Text` and `Image`, with the outcome of the check of its size. -/
  | leaf (type : TypeToken) (rejected : Option Failure) (value : α)
  /-- `VStack`, `HStack`, `Stack`, `Viewport`, `SliverFixedExtentList` and `Fragment`, with
  the outcome of the check of its numbers. -/
  | group (type : TypeToken) (rejected : Option Failure) (children : List (View α))
  /-- `Padding`, `ColoredBox`, `RepaintBoundary`, `GestureDetector`, `FocusView`, `Semantics`
  and `SliverToBoxAdapter`, with the outcome of the check of its insets. -/
  | single (type : TypeToken) (rejected : Option Failure) (child : View α)
  /-- `EnvironmentScope`. -/
  | environment (type : TypeToken) (values : List (TypeToken × α)) (child : View α)
  | optional (type : TypeToken) (child : Option (View α))
  | choice (type : TypeToken) (branch : Nat) (child : View α)
  | forEach (type : TypeToken) (items : List (Key × α))
  /-- `SliverFixedExtentList` over a `LazyForEach`. -/
  | lazyList (type : TypeToken) (rejected : Option Failure) (items : List (Key × α))
      (keepAliveKeys : List Key) (keepAliveLimit : Option Nat)

/-- `type_token` of a view. -/
def View.token {α : Type} : View α → ViewKind × TypeToken
  | .component type _ => (.component, type)
  | .leaf type _ _ => (.leaf, type)
  | .group type _ _ => (.group, type)
  | .single type _ _ => (.single, type)
  | .environment type _ _ => (.environment, type)
  | .optional type _ => (.optional, type)
  | .choice type _ _ => (.choice, type)
  | .forEach type _ => (.forEach, type)
  | .lazyList type _ _ _ _ => (.lazyList, type)

/-- A handle on a state slot; `comparable` says whether its type has `==`. -/
structure StateHandle where
  element : ElementId
  generation : Nat
  slot : String
  comparable : Bool := true
  deriving DecidableEq, Repr

/-- What the code of a build does, one operation at a time. -/
inductive Build (α : Type) where
  | done (view : View α)
  | throw (failure : Failure)
  /-- `Signal::get`. -/
  | get (signal : SignalId) (next : α → Build α)
  /-- `Signal::set`. -/
  | set (signal : SignalId) (value : α) (next : Build α)
  | createSignal (comparable : Bool) (value : α) (next : SignalId → Build α)
  | destroySignal (signal : SignalId) (next : Build α)
  /-- `BuildContext::state`. -/
  | state (slot : String) (comparable : Bool) (initial : α) (next : StateHandle → Build α)
  /-- `StateHandle::get`. -/
  | getState (handle : StateHandle) (next : α → Build α)
  /-- `StateHandle::set`. -/
  | setState (handle : StateHandle) (value : α) (next : Build α)
  /-- `BuildContext::environment`. -/
  | environment (type : TypeToken) (next : α → Build α)

/-- The application: the build of each component type, the item builder of each list
type, which component types can be compared and how, which environment types can be
compared, and the order in which a hash set of identities is iterated. -/
structure Program (α : Type) where
  build : TypeToken → α → Build α
  item : TypeToken → α → Build α
  comparable : TypeToken → Bool := fun _ => false
  same : TypeToken → α → α → Bool := fun _ _ _ => false
  environmentComparable : TypeToken → Bool := fun _ => true
  arrange : List ElementId → List ElementId := fun ids => ids
  arrange_perm : ∀ ids, (arrange ids).Perm ids := by exact fun ids => List.Perm.refl ids

structure Subscriber where
  id : ElementId
  generation : Nat
  deriving DecidableEq, Repr

/-- `DependencySource` with the value it guards: a `Signal` or an `EnvironmentSlot`. -/
structure DependencySource (α : Type) where
  value : α
  comparable : Bool
  subscribers : List Subscriber := []

/-- Names a dependency source. -/
inductive Dependency where
  | signal (id : SignalId)
  | environment (element : ElementId) (type : TypeToken)
  deriving DecidableEq, Repr

/-- Something a build can read. -/
inductive Readable where
  | dependency (dependency : Dependency)
  | slot (name : String)
  deriving DecidableEq, Repr

/-- The lazy model of a list element. -/
structure LazyModel (α : Type) where
  items : List (Key × α)
  keepAliveKeys : List Key
  keepAliveLimit : Option Nat

structure Element (α : Type) where
  generation : Nat
  depth : Nat
  viewType : ViewKind × TypeToken
  key : Key
  parent : Option ElementId
  debugValue : Option α := none
  updateCount : Nat := 0
  dirty : Bool := false
  rebuildingDirty : Bool := false
  children : List ElementId := []
  lazyKeptAliveChildren : List ElementId := []
  state : String → Option α := fun _ => none
  dependencies : List Dependency := []
  /-- The keys of `environment_`. -/
  provided : List TypeToken := []
  descriptor : Option α := none
  lazyModel : Option (LazyModel α) := none
  lazyRevision : Nat := 0
  /-- `rebuild_` is set. -/
  rebuild : Bool := false
  activeBranch : Option Nat := none
  /-- What the latest build has read so far. The source has no such field; it is what
  the results are about. -/
  reads : List (Readable × α) := []

/-- `BuildOwner`, with the sources its elements may observe (the signals, and the
environment slots of the elements) and the build context that is active on its thread. -/
structure BuildOwner (α : Type) where
  root : Option ElementId := none
  registry : ElementId → Option (Element α) := fun _ => none
  dirty : List ElementId := []
  nextId : ElementId := 1
  mountCount : Nat := 0
  unmountCount : Nat := 0
  reconciling : Bool := false
  framing : Bool := false
  sources : Dependency → Option (DependencySource α) := fun _ => none
  nextSignal : SignalId := 0
  /-- `detail::active_build_context`. -/
  active : Option ElementId := none

namespace BuildOwner
variable {α : Type}

def resolve (owner : BuildOwner α) (id : ElementId) (generation : Nat) : Option (Element α) :=
  (owner.registry id).filter (·.generation = generation)

/-- Changes one element in place. -/
def updateElement (owner : BuildOwner α) (id : ElementId) (f : Element α → Element α) :
    BuildOwner α :=
  { owner with
    registry := fun other => if other = id then (owner.registry other).map f
      else owner.registry other }

def markDirty (owner : BuildOwner α) (id : ElementId) (generation : Nat) : BuildOwner α :=
  match owner.resolve id generation with
  | none => owner
  | some element =>
    if ¬ element.rebuild then owner
    else
      { owner.updateElement id fun element => { element with dirty := true } with
        dirty := owner.dirty.insert id }

/-- Changes one dependency source in place. -/
def updateSource (owner : BuildOwner α) (dependency : Dependency)
    (f : DependencySource α → DependencySource α) : BuildOwner α :=
  { owner with
    sources := fun other => if other = dependency then (owner.sources other).map f
      else owner.sources other }

/-- `DependencySource::subscribe`. -/
def subscribe (owner : BuildOwner α) (dependency : Dependency) (id : ElementId)
    (generation : Nat) : BuildOwner α :=
  owner.updateSource dependency fun source =>
    if source.subscribers.any (·.id = id) then source
    else { source with subscribers := source.subscribers ++ [⟨id, generation⟩] }

/-- `DependencySource::unsubscribe`. -/
def unsubscribe (owner : BuildOwner α) (id : ElementId) (dependency : Dependency) : BuildOwner α :=
  owner.updateSource dependency fun source =>
    { source with subscribers := source.subscribers.filter (·.id ≠ id) }

/-- `DependencySource::notify_dependents`: who is gone is dropped, the others are
marked dirty. -/
def notifyDependents (owner : BuildOwner α) (dependency : Dependency) : BuildOwner α :=
  match owner.sources dependency with
  | none => owner
  | some source =>
    let mounted := source.subscribers.filter fun subscriber =>
      (owner.resolve subscriber.id subscriber.generation).isSome
    mounted.foldl (fun owner subscriber => owner.markDirty subscriber.id subscriber.generation)
      (owner.updateSource dependency fun source => { source with subscribers := mounted })

/-- `Signal::set` and `EnvironmentSlot::update`. -/
def write [DecidableEq α] (owner : BuildOwner α) (dependency : Dependency) (value : α) :
    BuildOwner α :=
  match owner.sources dependency with
  | none => owner
  | some source =>
    if source.comparable ∧ source.value = value then owner
    else (owner.updateSource dependency fun source => { source with value }).notifyDependents
      dependency

/-- `BuildContext::observe`. -/
def observe (owner : BuildOwner α) (id : ElementId) (dependency : Dependency) : BuildOwner α :=
  match owner.registry id with
  | none => owner
  | some element =>
    if dependency ∈ element.dependencies then owner
    else
      (owner.updateElement id fun element =>
        { element with dependencies := element.dependencies ++ [dependency] }).subscribe
        dependency id element.generation

/-- Notes what a build has read. -/
def noteRead (owner : BuildOwner α) (id : ElementId) (readable : Readable) (value : α) :
    BuildOwner α :=
  owner.updateElement id fun element =>
    { element with reads := element.reads ++ [(readable, value)] }

/-- `BuildOwner::clear_dependencies`. -/
def clearDependencies (owner : BuildOwner α) (id : ElementId) : BuildOwner α :=
  match owner.registry id with
  | none => owner
  | some element =>
    (element.dependencies.foldl (fun owner dependency => owner.unsubscribe id dependency)
      owner).updateElement id fun element => { element with dependencies := [], reads := [] }

/-- `BuildOwner::forget_dependency`. -/
def forgetDependency (owner : BuildOwner α) (dependency : Dependency) (subscriber : Subscriber) :
    BuildOwner α :=
  match owner.resolve subscriber.id subscriber.generation with
  | none => owner
  | some _ =>
    owner.updateElement subscriber.id fun element =>
      { element with dependencies := element.dependencies.filter (· ≠ dependency) }

/-- `~DependencySource`: the subscribers forget a source that is about to go. -/
def forgetSource (owner : BuildOwner α) (dependency : Dependency) : BuildOwner α :=
  match owner.sources dependency with
  | none => owner
  | some source =>
    source.subscribers.foldl (fun owner subscriber => owner.forgetDependency dependency subscriber)
      owner

/-- A source comes into being, without subscribers. -/
def addSource (owner : BuildOwner α) (dependency : Dependency) (comparable : Bool) (value : α) :
    BuildOwner α :=
  { owner with
    sources := fun other => if other = dependency then some { value, comparable }
      else owner.sources other }

/-- A source is destroyed. -/
def dropSource (owner : BuildOwner α) (dependency : Dependency) : BuildOwner α :=
  let forgotten := owner.forgetSource dependency
  { forgotten with
    sources := fun other => if other = dependency then none else forgotten.sources other }

def createSignal (owner : BuildOwner α) (comparable : Bool) (value : α) : BuildOwner α :=
  { owner.addSource (.signal owner.nextSignal) comparable value with
    nextSignal := owner.nextSignal + 1 }

/-- `BuildOwner::make_element`. -/
def makeElement (owner : BuildOwner α) (viewType : ViewKind × TypeToken) (key : Key)
    (parent : Option ElementId) : BuildOwner α :=
  let depth := match parent.bind owner.registry with
    | none => 0
    | some element => element.depth + 1
  { owner with
    registry := fun other => if other = owner.nextId then
        some { generation := owner.nextId, depth, viewType, key, parent }
      else owner.registry other
    nextId := owner.nextId + 1
    mountCount := owner.mountCount + 1 }

/-- The end of `BuildOwner::unmount`, after the children have gone: the element's
environment slots go with it. -/
def removeElement (owner : BuildOwner α) (id : ElementId) : BuildOwner α :=
  let cleared := owner.clearDependencies id
  let provided := match cleared.registry id with
    | none => []
    | some element => element.provided
  let removed : BuildOwner α :=
    { cleared with
      dirty := cleared.dirty.filter (· ≠ id)
      registry := fun other => if other = id then none else cleared.registry other
      unmountCount := cleared.unmountCount + 1 }
  provided.foldl (fun owner type => owner.dropSource (.environment id type)) removed

/-- What `reconcile_child` does to an element before it updates its view. -/
def beginUpdate (owner : BuildOwner α) (id : ElementId) : BuildOwner α :=
  { owner.updateElement id fun element =>
      { element with
        updateCount := element.updateCount + 1
        rebuildingDirty := element.dirty
        dirty := false } with
    dirty := owner.dirty.filter (· ≠ id) }

def endUpdate (owner : BuildOwner α) (id : ElementId) : BuildOwner α :=
  owner.updateElement id fun element => { element with rebuildingDirty := false }

/-- `ElementAccess::set_environment`. -/
def setEnvironment [DecidableEq α] (owner : BuildOwner α) (program : Program α) (id : ElementId)
    (type : TypeToken) (value : α) : BuildOwner α :=
  match owner.registry id, owner.sources (.environment id type) with
  | none, _ => owner
  | some _, some _ => owner.write (.environment id type) value
  | some _, none =>
    (owner.updateElement id fun element =>
      { element with provided := element.provided ++ [type] }).addSource (.environment id type)
      (program.environmentComparable type) value

/-- The walk of `BuildContext::environment` to the nearest element that provides the
type; the fuel is the depth of the element. -/
def findEnvironment (owner : BuildOwner α) (type : TypeToken) : Nat → ElementId → Option ElementId
  | fuel, id =>
    if (owner.sources (.environment id type)).isSome then some id
    else match fuel, (owner.registry id).bind (·.parent) with
      | fuel + 1, some parent => owner.findEnvironment type fuel parent
      | _, _ => none

/-- `BuildContext::state`: the slot keeps its value, or starts with the given one. -/
def declareState (owner : BuildOwner α) (id : ElementId) (slot : String) (initial : α) :
    BuildOwner α :=
  owner.updateElement id fun element =>
    { element with
      state := fun other => if other = slot then some ((element.state other).getD initial)
        else element.state other }

/-- The end of `StateHandle::set`, for a value that differs. -/
def writeState (owner : BuildOwner α) (handle : StateHandle) (value : α) : BuildOwner α :=
  match owner.resolve handle.element handle.generation with
  | none => owner
  | some _ =>
    (owner.updateElement handle.element fun element =>
      { element with
        state := fun other => if other = handle.slot then some value else element.state other
      }).markDirty handle.element handle.generation

end BuildOwner

end Dui
