import Dui.Hierarchy
import Dui.OwnerFrame

/-! The shape of an owner's elements: who is mounted under whom and in which lists. Most
operations of the build layer leave it alone, and those that change it make, remove or
relist elements. -/
namespace Dui
open Effect BuildOwner Hierarchy

variable {α β : Type}

/-- What a lazy model asks for: its keys, and which of its children are kept alive, and how
many. -/
structure LazyPolicy where
  keys : List Key
  keepAliveKeys : List Key
  keepAliveLimit : Option Nat

def LazyModel.policy (model : LazyModel α) : LazyPolicy :=
  ⟨model.items.map Prod.fst, model.keepAliveKeys, model.keepAliveLimit⟩

/-- What the shape keeps of an element beside its parent and depth. -/
structure Listing where
  generation : Nat
  kind : ViewKind
  policy : Option LazyPolicy
  children : List ElementId
  keptAlive : List ElementId

/-- Everything an element lists. -/
def Listing.all (listing : Listing) : List ElementId := listing.children ++ listing.keptAlive

/-- Views with at most one child that may go away. -/
def ViewKind.narrow (kind : ViewKind) : Bool := kind = .optional || kind = .choice

/-- What holds of every element by itself. -/
structure Listing.Fit (id : ElementId) (listing : Listing) : Prop where
  generation : listing.generation = id
  single : listing.kind.narrow = true → listing.children.length ≤ 1
  lazy : listing.policy.isSome = true → listing.kind = .lazyList

def Element.node (element : Element α) : Node Listing where
  depth := element.depth
  parent := element.parent
  info := {
    generation := element.generation
    kind := element.viewType.1
    policy := element.lazyModel.map LazyModel.policy
    children := element.children
    keptAlive := element.lazyKeptAliveChildren }

def BuildOwner.shape (owner : BuildOwner α) : Shape Listing where
  root := owner.root
  nodes id := (owner.registry id).map Element.node
  nextId := owner.nextId
  made := owner.mountCount
  removed := owner.unmountCount

/-! ### What leaves the shape alone -/

section Shapes
variable (owner : BuildOwner α)

theorem update_element_shape {id : ElementId} {f : Element α → Element α}
    (same : ∀ element, (f element).node = element.node) :
    (owner.updateElement id f).shape = owner.shape := by
  have nodes : (owner.updateElement id f).shape.nodes = owner.shape.nodes := by
    funext other
    by_cases here : other = id
    · subst here
      cases found : owner.registry other <;>
        simp [BuildOwner.shape, updateElement, found, same]
    · simp [BuildOwner.shape, updateElement, here]
  exact congrArg (fun nodes => { owner.shape with nodes }) nodes

@[simp] theorem update_source_shape (dependency : Dependency)
    (f : DependencySource α → DependencySource α) :
    (owner.updateSource dependency f).shape = owner.shape := rfl

@[simp] theorem subscribe_shape (dependency : Dependency) (id : ElementId) (generation : Nat) :
    (owner.subscribe dependency id generation).shape = owner.shape := rfl

@[simp] theorem unsubscribe_shape (id : ElementId) (dependency : Dependency) :
    (owner.unsubscribe id dependency).shape = owner.shape := rfl

@[simp] theorem add_source_shape (dependency : Dependency) (comparable : Bool) (value : α) :
    (owner.addSource dependency comparable value).shape = owner.shape := rfl

@[simp] theorem mark_dirty_shape (id : ElementId) (generation : Nat) :
    (owner.markDirty id generation).shape = owner.shape := by
  unfold markDirty
  split
  · rfl
  · split
    · rfl
    · exact update_element_shape owner fun _ => rfl

/-- Steps over a list, each of which leaves the shape alone. -/
theorem foldl_shape {ι : Type} {step : BuildOwner α → ι → BuildOwner α}
    (same : ∀ owner item, (step owner item).shape = owner.shape) (items : List ι) :
    ∀ owner, (items.foldl step owner).shape = owner.shape := by
  induction items with
  | nil => exact fun _ => rfl
  | cons item items ih => exact fun owner => (ih _).trans (same owner item)

@[simp] theorem notify_shape (dependency : Dependency) :
    (owner.notifyDependents dependency).shape = owner.shape := by
  unfold notifyDependents
  split
  · rfl
  · exact foldl_shape (fun owner _ => mark_dirty_shape owner _ _) _ _

@[simp] theorem write_shape [DecidableEq α] (dependency : Dependency) (value : α) :
    (owner.write dependency value).shape = owner.shape := by
  unfold write
  split
  · rfl
  · split
    · rfl
    · exact notify_shape _ _

@[simp] theorem observe_shape (id : ElementId) (dependency : Dependency) :
    (owner.observe id dependency).shape = owner.shape := by
  unfold observe
  split
  · rfl
  · split
    · rfl
    · exact update_element_shape owner fun _ => rfl

@[simp] theorem note_read_shape (id : ElementId) (readable : Readable) (value : α) :
    (owner.noteRead id readable value).shape = owner.shape :=
  update_element_shape owner fun _ => rfl

@[simp] theorem clear_dependencies_shape (id : ElementId) :
    (owner.clearDependencies id).shape = owner.shape := by
  unfold clearDependencies
  split
  · rfl
  · refine (update_element_shape _ fun _ => ?_).trans ?_
    · rfl
    · exact foldl_shape (fun owner _ => unsubscribe_shape owner _ _) _ _

@[simp] theorem forget_dependency_shape (dependency : Dependency) (subscriber : Subscriber) :
    (owner.forgetDependency dependency subscriber).shape = owner.shape := by
  unfold forgetDependency
  split
  · rfl
  · exact update_element_shape owner fun _ => rfl

@[simp] theorem drop_source_shape (dependency : Dependency) :
    (owner.dropSource dependency).shape = owner.shape := by
  show (owner.forgetSource dependency).shape = _
  unfold forgetSource
  split
  · rfl
  · exact foldl_shape (fun owner _ => forget_dependency_shape owner _ _) _ _

@[simp] theorem create_signal_shape (comparable : Bool) (value : α) :
    (owner.createSignal comparable value).shape = owner.shape := rfl

@[simp] theorem begin_update_shape (id : ElementId) :
    (owner.beginUpdate id).shape = owner.shape := update_element_shape owner fun _ => rfl

@[simp] theorem end_update_shape (id : ElementId) :
    (owner.endUpdate id).shape = owner.shape := update_element_shape owner fun _ => rfl

@[simp] theorem set_environment_shape [DecidableEq α] (program : Program α) (id : ElementId)
    (type : TypeToken) (value : α) :
    (owner.setEnvironment program id type value).shape = owner.shape := by
  unfold setEnvironment
  split
  · rfl
  · exact write_shape owner _ _
  · exact update_element_shape owner fun _ => rfl

@[simp] theorem declare_state_shape (id : ElementId) (slot : String) (initial : α) :
    (owner.declareState id slot initial).shape = owner.shape :=
  update_element_shape owner fun _ => rfl

@[simp] theorem write_state_shape (handle : StateHandle) (value : α) :
    (owner.writeState handle value).shape = owner.shape := by
  unfold writeState
  split
  · rfl
  · exact (mark_dirty_shape _ _ _).trans (update_element_shape owner fun _ => rfl)

/-! ### What changes it -/

/-- An element is made at the depth its parent gives it. -/
theorem make_element_shape (viewType : ViewKind × TypeToken) (key : Key)
    (parent : Option ElementId) (depth : Nat)
    (deep : depth = match parent.bind owner.registry with
      | none => 0
      | some element => element.depth + 1) :
    (owner.makeElement viewType key parent).shape = owner.shape.make depth parent
      ⟨owner.nextId, viewType.1, none, [], []⟩ := by
  have nodes : (owner.makeElement viewType key parent).shape.nodes =
      (owner.shape.make depth parent ⟨owner.nextId, viewType.1, none, [], []⟩).nodes := by
    funext other
    subst deep
    by_cases new : other = owner.nextId
    · simp only [BuildOwner.shape, makeElement, Shape.make, new, if_true, Option.map_some]
      rfl
    · simp [BuildOwner.shape, makeElement, Shape.make, new]
  exact congrArg (fun nodes => { owner.shape with
    nodes, nextId := owner.nextId + 1, made := owner.mountCount + 1 }) nodes

theorem remove_element_shape (id : ElementId) :
    (owner.removeElement id).shape = owner.shape.remove id := by
  have cleared := clear_dependencies_shape owner id
  refine (foldl_shape (fun owner _ => drop_source_shape owner _) _ _).trans ?_
  have nodes : ∀ other, (if other = id then none else
      ((owner.clearDependencies id).registry other)).map Element.node =
      (owner.shape.remove id).nodes other := by
    intro other
    have same := congrFun (congrArg Shape.nodes cleared) other
    simp only [BuildOwner.shape] at same
    by_cases gone : other = id
    · simp [Shape.remove, gone]
    · simpa [Shape.remove, gone, BuildOwner.shape] using same
  simp only [BuildOwner.shape, Shape.remove, Shape.mk.injEq]
  refine ⟨congrArg Shape.root cleared, funext nodes, congrArg Shape.nextId cleared,
    congrArg Shape.made cleared, congrArg (Shape.removed · + 1) cleared⟩

/-- Relisting an element. -/
theorem relist_shape {id : ElementId} {f : Element α → Element α} {relist : Listing → Listing}
    {node : Node Listing} (found : owner.shape.nodes id = some node)
    (listed : ∀ element,
      (f element).node = { element.node with info := relist element.node.info }) :
    (owner.updateElement id f).shape = owner.shape.setInfo id (relist node.info) := by
  have nodes : (owner.updateElement id f).shape.nodes =
      (owner.shape.setInfo id (relist node.info)).nodes := by
    funext other
    by_cases here : other = id
    · subst here
      simp only [BuildOwner.shape] at found
      obtain ⟨element, mounted, rfl⟩ := Option.map_eq_some_iff.mp found
      simp [BuildOwner.shape, updateElement, Shape.setInfo, mounted, listed]
    · simp [BuildOwner.shape, updateElement, Shape.setInfo, here]
  exact congrArg (fun nodes => { owner.shape with nodes }) nodes

end Shapes

/-! ### Computations that leave it alone -/

/-- A computation that leaves the shape alone, however it ends. -/
def Neutral (run : Building α β) : Prop :=
  ∀ shape, Keeps (fun owner => owner.shape = shape) run

namespace Neutral

/-- What holds of the shape before such a computation holds after it. -/
theorem keeps {run : Building α β} (neutral : Neutral run) (holds : Shape Listing → Prop) :
    Keeps (fun owner => holds owner.shape) run := by
  intro owner outcome next held ran
  have same : next.shape = owner.shape := neutral owner.shape owner outcome next rfl ran
  exact same ▸ held

theorem change {f : BuildOwner α → BuildOwner α} (same : ∀ owner, (f owner).shape = owner.shape) :
    Neutral (Run.change f) := fun _ => Keeps.change fun owner held => (same owner).trans held

theorem bind {γ : Type} {run : Building α β} {next : β → Building α γ} (first : Neutral run)
    (rest : ∀ value, Neutral (next value)) : Neutral (run >>= next) :=
  fun shape => Keeps.bind (first shape) fun value => rest value shape

theorem read {view : BuildOwner α → β} : Neutral (Run.read view) := fun _ => Keeps.read

theorem pure {value : β} : Neutral (Pure.pure value : Building α β) := fun _ => Keeps.pure

theorem throw {failure : Failure} : Neutral (Run.throw failure : Building α β) :=
  fun _ => Keeps.throw

theorem resume {caught : Except Failure β} : Neutral (Run.resume caught : Building α β) :=
  fun _ => Keeps.resume

theorem diverge : Neutral (Run.diverge : Building α β) := fun _ => Keeps.diverge

theorem each {ι : Type} {body : ι → Building α Unit} (neutral : ∀ item, Neutral (body item))
    (items : List ι) : Neutral (Run.each body items) :=
  fun shape => Keeps.each (fun item => neutral item shape) items

end Neutral

theorem read_dependency_neutral (dependency : Dependency) :
    Neutral (readDependency dependency : Building α α) := by
  intro shape owner outcome next held ran
  unfold readDependency at ran
  split at ran
  · cases ran
  · split at ran
    · cases ran
      exact held
    · cases ran
      simpa using held

theorem read_state_neutral (handle : StateHandle) :
    Neutral (readState handle : Building α α) := by
  intro shape owner outcome next held ran
  unfold readState at ran
  split at ran
  · cases ran
    exact held
  · split at ran
    · cases ran
      simpa using held
    · cases ran
      exact held

variable [DecidableEq α]

theorem set_state_neutral (handle : StateHandle) (value : α) : Neutral (setState handle value) := by
  refine .bind .read fun current => .bind .resume fun current => ?_
  split
  · exact .pure
  · exact .change fun owner => write_state_shape owner handle value

/-- A build leaves the shape alone, one operation at a time. -/
theorem run_build_neutral (build : Build α) : Neutral (runBuild build) := by
  induction build with
  | done view => exact .pure
  | throw failure => exact .throw
  | get signal next ih => exact .bind (read_dependency_neutral _) ih
  | set signal value next ih =>
    exact .bind (.change fun owner => write_shape owner _ value) fun _ => ih
  | createSignal comparable value next ih =>
    exact .bind .read fun signal => .bind (.change fun owner => create_signal_shape owner _ _)
      fun _ => ih signal
  | destroySignal signal next ih =>
    exact .bind (.change fun owner => drop_source_shape owner _) fun _ => ih
  | state slot comparable initial next ih =>
    rw [runBuild]
    refine .bind .read fun found => ?_
    split
    · exact .diverge
    · exact .bind (.change fun owner => declare_state_shape owner _ slot initial) fun _ => ih _
  | getState handle next ih => exact .bind (read_state_neutral handle) ih
  | setState handle value next ih => exact .bind (set_state_neutral handle value) fun _ => ih
  | environment type next ih =>
    rw [runBuild]
    refine .bind .read fun active => ?_
    split
    · exact .diverge
    · refine .bind .read fun provider => ?_
      split
      · exact .throw
      · exact .bind (read_dependency_neutral _) ih

theorem build_items_neutral (program : Program α) (type : TypeToken) (items : List (Key × α)) :
    ∀ views, Neutral (buildItems program type views items) := by
  induction items with
  | nil => exact fun _ => .pure
  | cons item items ih =>
    intro views
    rw [buildItems]
    split
    · exact .throw
    · exact .bind (run_build_neutral _) fun view => ih _

theorem build_lazy_items_neutral (program : Program α) (type : TypeToken)
    (items : List (Key × α)) : ∀ views, Neutral (buildLazyItems program type views items) := by
  induction items with
  | nil => exact fun _ => .pure
  | cons item items ih => exact fun views => .bind (run_build_neutral _) fun view => ih _

end Dui
