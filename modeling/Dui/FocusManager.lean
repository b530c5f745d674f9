import Mathlib.Data.List.Basic
import Dui.Foundation

/-! Focus nodes, and what their manager does with them: it knows the live ones, which of them
has the focus, and offers keys to that one and those above it. -/
namespace Dui

/-- `FocusNode::Id`. -/
abbrev FocusId := Nat

inductive KeyPhase where
  | down
  | repeat
  | up
  deriving DecidableEq, Repr

structure KeyEvent where
  logicalKey : String
  phase : KeyPhase := .down
  shift : Bool := false
  control : Bool := false
  alt : Bool := false
  metaKey : Bool := false
  deriving DecidableEq, Repr

inductive KeyEventResult where
  | ignored
  | handled
  deriving DecidableEq, Repr

/-- `FocusNode`: of its key handler, whether there is one. -/
structure FocusNode where
  parent : Option FocusId
  canFocus : Bool
  handler : Bool
  deriving DecidableEq, Repr

/-- `FocusManager`: the nodes that are alive. -/
structure FocusManager where
  nodes : FocusId → Option FocusNode := fun _ => none
  nextId : FocusId := 1
  focused : Option FocusId := none

/-- The node once another one is gone, which may have been its parent. -/
def FocusNode.reparent (node : FocusNode) (gone : FocusId) (parent : Option FocusId) : FocusNode :=
  if node.parent = some gone then { node with parent } else node

namespace FocusManager
variable (manager : FocusManager)

/-- `create_node`, with the identity of the node. -/
def createNode (parent : Option FocusId) (handler canFocus : Bool) : FocusId × FocusManager :=
  (manager.nextId,
    { manager with
      nodes := Function.update manager.nodes manager.nextId (some { parent, canFocus, handler })
      nextId := manager.nextId + 1 })

def modify (id : FocusId) (f : FocusNode → FocusNode) : FocusManager :=
  { manager with nodes := Function.update manager.nodes id ((manager.nodes id).map f) }

/-- `request_focus`. -/
def requestFocus (id : FocusId) (node : FocusNode) : Except Failure FocusManager :=
  if node.canFocus then .ok { manager with focused := some id }
  else .error (.logicError "FocusNode cannot receive focus")

def clearFocus : FocusManager := { manager with focused := none }

/-- `focused_node`. -/
def focusedNode : Option FocusId := manager.focused.filter fun id => (manager.nodes id).isSome

/-- `FocusNode::set_can_focus`. -/
def setCanFocus (id : FocusId) (value : Bool) : FocusManager :=
  let manager := manager.modify id fun node => { node with canFocus := value }
  if !value && manager.focusedNode = some id then manager.clearFocus else manager

/-- The loop that looks for a node to take over the focus. -/
def heir : Nat → Option FocusId → Option FocusId
  | 0, _ => none
  | _, none => none
  | fuel + 1, some parent =>
    match manager.nodes parent with
    | none => none
    | some candidate => if candidate.canFocus then some parent else heir fuel candidate.parent

/-- The manager once a node is gone and its children have gone to its parent. -/
def forget (id : FocusId) (parent : Option FocusId) : FocusManager :=
  { manager with
    nodes := fun other =>
      if other = id then none else (manager.nodes other).map (·.reparent id parent) }

/-- `detach`. -/
def detach (id : FocusId) (parent : Option FocusId) : FocusManager :=
  let left := manager.forget id parent
  if left.focused ≠ some id then left
  else { left with focused := left.heir left.nextId parent }

/-- The destructor of a node. -/
def destroyNode (id : FocusId) : FocusManager :=
  match manager.nodes id with
  | none => manager
  | some node => manager.detach id node.parent

/-- The nodes from one up, as `dispatch_key` collects them. -/
def routeFrom : Nat → Option FocusId → List FocusId
  | 0, _ => []
  | _, none => []
  | fuel + 1, some id =>
    match manager.nodes id with
    | none => []
    | some node => id :: routeFrom fuel node.parent

/-- The route of a key. -/
def route : List FocusId := manager.routeFrom manager.nextId manager.focusedNode

end FocusManager

/-! Runs. Handlers may call the manager too; a node that a dispatch holds dies when the
dispatch is over. -/

/-- What can be called besides `dispatch_key`. -/
inductive FocusCall where
  | createNode (parent : Option FocusId) (handler canFocus : Bool)
  | destroyNode (id : FocusId)
  | requestFocus (id : FocusId)
  | clearFocus
  | setCanFocus (id : FocusId) (value : Bool)
  | setKeyHandler (id : FocusId) (present : Bool)
  deriving DecidableEq, Repr

/-- What a handler does when it is called: its own calls, and what it returns, unless it
throws. -/
structure HandlerRun where
  calls : List FocusCall := []
  result : Option KeyEventResult
  deriving DecidableEq, Repr

/-- A manager, the nodes that a dispatch under way holds, those of them that nothing else
holds any more, and the parent that every node was created with. -/
structure FocusHistory where
  manager : FocusManager := {}
  held : List FocusId := []
  released : List FocusId := []
  original : FocusId → Option FocusId := fun _ => none

namespace FocusHistory

/-- A call, which can only be made with nodes that are alive; one that throws changes
nothing. -/
def perform (history : FocusHistory) : FocusCall → Option FocusHistory
  | .createNode parent handler canFocus =>
    if parent.all fun id => (history.manager.nodes id).isSome then
      let (id, manager) := history.manager.createNode parent handler canFocus
      some { history with manager, original := Function.update history.original id parent }
    else none
  | .destroyNode id =>
    if (history.manager.nodes id).isSome then
      if id ∈ history.held then some { history with released := id :: history.released }
      else some { history with manager := history.manager.destroyNode id }
    else none
  | .requestFocus id =>
    (history.manager.nodes id).map fun node =>
      match history.manager.requestFocus id node with
      | .ok manager => { history with manager }
      | .error _ => history
  | .clearFocus => some { history with manager := history.manager.clearFocus }
  | .setCanFocus id value =>
    if (history.manager.nodes id).isSome then
      some { history with manager := history.manager.setCanFocus id value }
    else none
  | .setKeyHandler id present =>
    if (history.manager.nodes id).isSome then
      some { history with
        manager := history.manager.modify id fun node => { node with handler := present } }
    else none

/-- What becomes of a node on the route of a key: it has no handler, or this is how its handler
ends. -/
inductive Offer where
  | noHandler
  | ended (result : Option KeyEventResult)
  deriving DecidableEq, Repr

/-- The loop of `dispatch_key`: what becomes of each node it comes to, and what it returns
unless a handler throws. -/
def offer (run : FocusId → HandlerRun) : FocusHistory → List FocusId →
    Option (List (FocusId × Offer) × Option KeyEventResult × FocusHistory)
  | history, [] => some ([], some .ignored, history)
  | history, id :: rest => do
    if (history.manager.nodes id).any (·.handler) then
      let history ← (run id).calls.foldlM perform history
      match (run id).result with
      | some .ignored =>
        let (offers, result, history) ← offer run history rest
        pure ((id, .ended (some .ignored)) :: offers, result, history)
      | ended => pure ([(id, .ended ended)], ended, history)
    else
      let (offers, result, history) ← offer run history rest
      pure ((id, .noHandler) :: offers, result, history)

/-- The route lets go of its nodes. -/
def letGo (history : FocusHistory) (route : List FocusId) : FocusHistory :=
  { history with
    manager := (route.filter (· ∈ history.released)).foldl FocusManager.destroyNode history.manager
    held := []
    released := [] }

/-- `dispatch_key`. -/
def dispatchKey (history : FocusHistory) (event : KeyEvent)
    (run : FocusId → KeyEvent → HandlerRun) :
    Option (List (FocusId × Offer) × Option KeyEventResult × FocusHistory) := do
  let route := history.manager.route
  let (offers, result, history) ← offer (run · event) { history with held := route } route
  pure (offers, result, history.letGo route)

end FocusHistory

end Dui
