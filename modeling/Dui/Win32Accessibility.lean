import Mathlib.Data.List.Sort
import Dui.SemanticsDiffer

/-! The Win32 accessibility adapter: the nodes it serves to UI Automation, and how a batch of
changes is applied to a copy of them and checked before it takes their place. -/
namespace Dui

/-- The hash map's order of iteration, and which coordinates are finite: a coordinate too
large for a `double` stands for an infinite one. -/
structure Win32Platform where
  isfinite : ℚ → Bool
  arrange {ι : Type} : List ι → List ι := id
  arrange_perm {ι : Type} : ∀ items : List ι, (arrange items).Perm items := by
    exact fun items => List.Perm.refl items

structure NativeNode where
  entry : SemanticsEntry
  children : List Nat := []
  deriving DecidableEq, Repr

/-- `ProviderModel`: the nodes, which are found by the identities of their entries, and the
roots among them. -/
structure ProviderModel where
  nodes : List NativeNode := []
  roots : List Nat := []
  deriving DecidableEq, Repr

namespace ProviderModel

def find (model : ProviderModel) (id : Nat) : Option NativeNode :=
  model.nodes.find? fun node => node.entry.id = id

/-- Changes one node in place. -/
def updateNode (model : ProviderModel) (id : Nat) (f : NativeNode → NativeNode) : ProviderModel :=
  { model with nodes := model.nodes.map fun node => if node.entry.id = id then f node else node }

end ProviderModel

def validRect (platform : Win32Platform) (rect : Rect) : Bool :=
  platform.isfinite rect.origin.x && platform.isfinite rect.origin.y &&
    platform.isfinite rect.size.width && platform.isfinite rect.size.height &&
    decide (0 ≤ rect.size.width) && decide (0 ≤ rect.size.height)

/-- Is a rectangle finite at this scale? -/
def scaledFinite (platform : Win32Platform) (scale : ℚ) (rect : Rect) : Bool :=
  platform.isfinite (rect.origin.x * scale) && platform.isfinite (rect.origin.y * scale) &&
    platform.isfinite (rect.size.width * scale) && platform.isfinite (rect.size.height * scale)

/-- The loop of `validate_scaled_bounds`. -/
def validateScaledBounds (platform : Win32Platform) (scale : ℚ) :
    List NativeNode → Except Failure Unit
  | [] => pure ()
  | node :: rest =>
    if scaledFinite platform scale node.entry.bounds then validateScaledBounds platform scale rest
    else throw (.invalidArgument "Win32 accessibility bounds overflow at the configured DPR")

/-- The walk from a node to its root, with as many steps left. -/
def ascend (model : ProviderModel) : Nat → Nat → Except Failure Unit
  | left, ancestor =>
    match model.find ancestor with
    | none => throw (.logicError "unordered_map::at")
    | some node =>
      match node.entry.parentId, left with
      | none, _ => pure ()
      | some _, 0 => throw (.invalidArgument "Win32 accessibility received a parent cycle")
      | some parent, left + 1 => ascend model left parent

/-- The locals of the first loop of `rebuild_hierarchy`. -/
structure Linking where
  model : ProviderModel
  hasFocusedNode : Bool := false

/-- Adds a node to the children of its parent, or to the roots. -/
def ProviderModel.link (model : ProviderModel) (entry : SemanticsEntry) :
    Except Failure ProviderModel :=
  match entry.parentId with
  | none => pure { model with roots := model.roots ++ [entry.id] }
  | some parent =>
    if (model.find parent).isNone ∨ parent = entry.id then
      throw (.invalidArgument "Win32 accessibility received an invalid parent")
    else
      pure (model.updateNode parent fun node =>
        { node with children := node.children ++ [entry.id] })

/-- The body of the first loop of `rebuild_hierarchy`. -/
def linkNode (platform : Win32Platform) (entry : SemanticsEntry) (done : Linking) :
    Except Failure Linking :=
  if ¬validRect platform entry.bounds then
    throw (.invalidArgument "Win32 accessibility received invalid bounds")
  else if entry.focused ∧ (¬entry.focusable ∨ ¬entry.enabled ∨ done.hasFocusedNode) then
    throw (.invalidArgument "Win32 accessibility received invalid focus state")
  else if entry.focusable ≠ entry.actions.contains .focus then
    throw (.invalidArgument "Win32 accessibility received inconsistent focus actions")
  else do
    let model ← done.model.link entry
    ascend model model.nodes.length entry.id
    pure ⟨model, done.hasFocusedNode || entry.focused⟩

def linkNodes (platform : Win32Platform) : List SemanticsEntry → Linking → Except Failure Linking
  | [], done => pure done
  | entry :: rest, done => do linkNodes platform rest (← linkNode platform entry done)

def ProviderModel.childIndexOf (model : ProviderModel) (id : Nat) : Nat :=
  match model.find id with
  | none => 0
  | some node => node.entry.childIndex

/-- `sort_children`: what it accepts is sorted in one way only. -/
def ProviderModel.sortChildren (model : ProviderModel) (children : List Nat) :
    Except Failure (List Nat) :=
  let sorted := children.insertionSort fun first second =>
    model.childIndexOf first ≤ model.childIndexOf second
  if sorted.map model.childIndexOf = List.range sorted.length then pure sorted
  else throw (.invalidArgument "Win32 accessibility received invalid sibling indexes")

/-- The last loop of `rebuild_hierarchy`. -/
def ProviderModel.sortNodes (model : ProviderModel) :
    List NativeNode → Except Failure (List NativeNode)
  | [] => pure []
  | node :: rest => do
    let children ← model.sortChildren node.children
    let rest ← model.sortNodes rest
    pure ({ node with children } :: rest)

def rebuildHierarchy (platform : Win32Platform) (model : ProviderModel) :
    Except Failure ProviderModel := do
  let cleared : ProviderModel := ⟨model.nodes.map fun node => { node with children := [] }, []⟩
  let linked ← linkNodes platform ((platform.arrange model.nodes).map (·.entry)) { model := cleared }
  let roots ← linked.model.sortChildren linked.model.roots
  let nodes ← linked.model.sortNodes linked.model.nodes
  pure { nodes, roots }

/-- Applies one change of a batch to the copy of the nodes. -/
def ProviderModel.applyChange (model : ProviderModel) (change : SemanticsChange) :
    Except Failure ProviderModel :=
  if change.entry.id = 0 then
    throw (.invalidArgument "Win32 accessibility requires nonzero semantic IDs")
  else match change with
    | .added entry =>
      if (model.find entry.id).isSome then
        throw (.invalidArgument "Win32 accessibility added an existing node")
      else pure { model with nodes := model.nodes ++ [{ entry }] }
    | .updated entry =>
      if (model.find entry.id).isNone then
        throw (.invalidArgument "Win32 accessibility updated a missing node")
      else pure (model.updateNode entry.id fun node => { node with entry })
    | .removed entry =>
      if (model.find entry.id).isNone then
        throw (.invalidArgument "Win32 accessibility removed a missing node")
      else pure { model with nodes := model.nodes.filter fun node => node.entry.id ≠ entry.id }

def ProviderModel.applyChanges : List SemanticsChange → ProviderModel →
    Except Failure ProviderModel
  | [], model => pure model
  | change :: rest, model => do applyChanges rest (← model.applyChange change)

/-- What takes the place of the nodes, if nothing is wrong with it. -/
def ProviderModel.prepare (platform : Win32Platform) (scale : ℚ) (model : ProviderModel)
    (changes : List SemanticsChange) : Except Failure ProviderModel := do
  let next ← applyChanges changes ⟨model.nodes, []⟩
  let next ← rebuildHierarchy platform next
  validateScaledBounds platform scale (platform.arrange next.nodes)
  pure next

/-- `AccessibilityAdapter::apply`, without the events it raises. -/
def ProviderModel.apply (platform : Win32Platform) (scale : ℚ) (model : ProviderModel)
    (changes : List SemanticsChange) : Except Failure Unit × ProviderModel :=
  match model.prepare platform scale changes with
  | .error failure => (.error failure, model)
  | .ok next => (.ok (), next)

end Dui
