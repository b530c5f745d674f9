import Mathlib.Algebra.GroupWithZero.Nat
import Dui.Foundation
import Dui.ForestEdit

/-! The semantics differ: a tree of semantics nodes is flattened into entries,
and two successive lists of entries are turned into a batch of changes. -/
namespace Dui

inductive SemanticsRole where
  | generic
  | text
  | image
  | button
  deriving DecidableEq, Repr

inductive SemanticsAction where
  | activate
  | focus
  deriving DecidableEq, Repr

structure SemanticsNode where
  id : Nat
  role : SemanticsRole := .generic
  label : String := ""
  value : String := ""
  enabled : Bool := true
  bounds : Rect := {}
  actions : List SemanticsAction := []
  children : List SemanticsNode := []
  focusable : Bool := false
  focused : Bool := false

def SemanticsNode.supports (node : SemanticsNode) (action : SemanticsAction) : Bool :=
  node.actions.contains action

structure SemanticsTree where
  roots : List SemanticsNode := []

structure SemanticsEntry where
  id : Nat
  parentId : Option Nat
  childIndex : Nat
  role : SemanticsRole
  label : String
  value : String
  enabled : Bool
  bounds : Rect
  actions : List SemanticsAction
  focusable : Bool
  focused : Bool
  deriving DecidableEq, Repr

abbrev SemanticsChange := ForestEdit.Change SemanticsEntry

abbrev SemanticsUpdate := List SemanticsChange

mutual
/-- How many nodes a subtree has. -/
def SemanticsNode.size : SemanticsNode → Nat
  | ⟨_, _, _, _, _, _, _, children, _, _⟩ => 1 + SemanticsNode.sizes children
/-- How many nodes a list of subtrees has. -/
def SemanticsNode.sizes : List SemanticsNode → Nat
  | [] => 0
  | node :: rest => node.size + SemanticsNode.sizes rest
end

/-- `PendingNode`: a node on the explicit stack with its place in the tree. -/
structure PendingNode where
  node : SemanticsNode
  parentId : Option Nat
  childIndex : Nat

/-- Siblings as they are pushed, the first of them ending on top. -/
def pendingNodes (parentId : Option Nat) (index : Nat) : List SemanticsNode → List PendingNode
  | [] => []
  | node :: rest => ⟨node, parentId, index⟩ :: pendingNodes parentId (index + 1) rest

/-- The entry that describes one node at its place. -/
def PendingNode.entry (current : PendingNode) : SemanticsEntry :=
  let node := current.node
  { id := node.id, parentId := current.parentId, childIndex := current.childIndex,
    role := node.role, label := node.label, value := node.value, enabled := node.enabled,
    bounds := node.bounds, actions := node.actions, focusable := node.focusable,
    focused := node.focused }

/-- The locals of the flattening loop of `SemanticsDiffer::update`. -/
structure Flattening where
  next : List SemanticsEntry := []
  ids : List Nat := []
  hasFocusedNode : Bool := false

/-- The body of the flattening loop: the checks of one node, then its entry. -/
def visitNode (current : PendingNode) (done : Flattening) : Except Failure Flattening :=
  let node := current.node
  if node.id = 0 ∨ node.id ∈ done.ids then
    throw (.logicError "SemanticsTree node IDs must be nonzero and unique")
  else if node.focused ∧ (¬ node.focusable ∨ ¬ node.enabled ∨ done.hasFocusedNode) then
    throw (.logicError "SemanticsTree contains invalid focus state")
  else if node.focusable ≠ node.supports .focus then
    throw (.logicError "SemanticsTree contains inconsistent focus actions")
  else
    pure { next := done.next ++ [current.entry], ids := node.id :: done.ids,
           hasFocusedNode := done.hasFocusedNode || node.focused }

theorem pending_sizes (parentId : Option Nat) (index : Nat) (nodes : List SemanticsNode) :
    ((pendingNodes parentId index nodes).map fun pending => pending.node.size).sum =
      SemanticsNode.sizes nodes := by
  induction nodes generalizing index with
  | nil => rfl
  | cons node rest ih => simp [pendingNodes, SemanticsNode.sizes, ih]

theorem size_children (node : SemanticsNode) :
    node.size = 1 + SemanticsNode.sizes node.children := by
  cases node
  rfl

/-- The flattening loop over the explicit stack. -/
def flattenLoop : List PendingNode → Flattening → Except Failure Flattening
  | [], done => pure done
  | current :: pending, done => do
    let done ← visitNode current done
    flattenLoop (pendingNodes (some current.node.id) 0 current.node.children ++ pending) done
termination_by pending => (pending.map fun pending => pending.node.size).sum
decreasing_by
  simp only [List.map_append, List.sum_append, List.map_cons, List.sum_cons, pending_sizes]
  rw [size_children current.node]
  omega

/-- The entries of a tree in depth-first order, or the first check it fails. -/
def flattenTree (tree : SemanticsTree) : Except Failure (List SemanticsEntry) := do
  let done ← flattenLoop (pendingNodes none 0 tree.roots) {}
  pure done.next

/-- How entries name themselves and their parents. -/
def entryKeys : ForestEdit.Keyed Nat SemanticsEntry := ⟨SemanticsEntry.id, SemanticsEntry.parentId⟩

structure SemanticsDiffer where
  entries : List SemanticsEntry := []
  deriving DecidableEq, Repr

/-- `SemanticsDiffer::update`: the outcome and the differ it leaves behind.
Looking an identity up in a list finds its first entry, as inserting every
entry into an empty map keeps the first. -/
def SemanticsDiffer.update (differ : SemanticsDiffer) (tree : SemanticsTree) :
    Except Failure SemanticsUpdate × SemanticsDiffer :=
  match flattenTree tree with
  | .error failure => (.error failure, differ)
  | .ok next =>
    let previousById := fun id => differ.entries.find? fun entry => entry.id = id
    let nextIds := next.map SemanticsEntry.id
    let added := next.filter fun entry => (previousById entry.id).isNone
    let updated := next.filter fun entry =>
      (previousById entry.id).isSome ∧ previousById entry.id ≠ some entry
    let removed := differ.entries.reverse.filter fun entry => entry.id ∉ nextIds
    let changes := added.map .added ++ updated.map .updated ++ removed.map .removed
    if changes.isEmpty then (.ok [], differ) else (.ok changes, ⟨next⟩)

/-- `SemanticsDiffer::clear`: everything is removed, children first. -/
def SemanticsDiffer.clear (differ : SemanticsDiffer) : SemanticsUpdate × SemanticsDiffer :=
  (differ.entries.reverse.map .removed, ⟨[]⟩)

end Dui
