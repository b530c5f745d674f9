import Dui.SemanticsMirror

/-! The accessibility bridge: what a native adapter has acknowledged, and at
most one batch that is on its way to it. -/
namespace Dui

structure AccessibilityPublication where
  generation : Nat
  update : SemanticsUpdate
  deriving DecidableEq

/-- `Transaction`: a batch that is prepared and not yet acknowledged. -/
structure Transaction where
  generation : Nat
  candidate : SemanticsDiffer
  update : SemanticsUpdate
  inFlight : Bool
  deriving DecidableEq

structure AccessibilityBridge where
  differ : SemanticsDiffer := {}
  transaction : Option Transaction := none
  delivering : Bool := false
  nextGeneration : Nat := 1
  deriving DecidableEq

private def activeDelivery : Failure := .logicError "AccessibilityBridge delivery is already active"

/-- `begin_transaction` with the generation it takes. -/
def AccessibilityBridge.beginTransaction (bridge : AccessibilityBridge)
    (candidate : SemanticsDiffer) (update : SemanticsUpdate) :
    Except Failure (Option AccessibilityPublication × AccessibilityBridge) :=
  if update.isEmpty then .ok (none, bridge)
  else if bridge.nextGeneration = maxGeneration then
    .error (.overflowError "Accessibility publication generation exhausted")
  else
    .ok (some ⟨bridge.nextGeneration, update⟩,
      { bridge with
        transaction := some ⟨bridge.nextGeneration, candidate, update, true⟩
        nextGeneration := bridge.nextGeneration + 1 })

def AccessibilityBridge.prepare (bridge : AccessibilityBridge) (tree : SemanticsTree) :
    Except Failure (Option AccessibilityPublication × AccessibilityBridge) :=
  if bridge.delivering ∨ bridge.transaction.isSome then .error activeDelivery
  else match bridge.differ.update tree with
    | (.error failure, _) => .error failure
    | (.ok update, candidate) => bridge.beginTransaction candidate update

def AccessibilityBridge.prepareClear (bridge : AccessibilityBridge) :
    Except Failure (Option AccessibilityPublication × AccessibilityBridge) :=
  if bridge.delivering ∨ bridge.transaction.isSome then .error activeDelivery
  else bridge.beginTransaction bridge.differ.clear.2 bridge.differ.clear.1

def AccessibilityBridge.retry (bridge : AccessibilityBridge) :
    Except Failure (Option AccessibilityPublication × AccessibilityBridge) :=
  match bridge.transaction with
  | none => .ok (none, bridge)
  | some transaction =>
    if transaction.inFlight then .ok (none, bridge)
    else if bridge.nextGeneration = maxGeneration then
      .error (.overflowError "Accessibility publication generation exhausted")
    else
      .ok (some ⟨bridge.nextGeneration, transaction.update⟩,
        { bridge with
          transaction := some
            { transaction with generation := bridge.nextGeneration, inFlight := true }
          nextGeneration := bridge.nextGeneration + 1 })

/-- Is this the batch that is on its way? -/
def AccessibilityBridge.flies (bridge : AccessibilityBridge) (generation : Nat) : Bool :=
  match bridge.transaction with
  | none => false
  | some transaction => transaction.inFlight && transaction.generation == generation

def AccessibilityBridge.acknowledge (bridge : AccessibilityBridge) (generation : Nat) :
    Bool × AccessibilityBridge :=
  match bridge.transaction with
  | none => (false, bridge)
  | some transaction =>
    if bridge.flies generation then
      (true, { bridge with differ := transaction.candidate, transaction := none })
    else (false, bridge)

def AccessibilityBridge.reject (bridge : AccessibilityBridge) (generation : Nat) :
    Bool × AccessibilityBridge :=
  match bridge.transaction with
  | none => (false, bridge)
  | some transaction =>
    if bridge.flies generation then
      (true, { bridge with transaction := some { transaction with inFlight := false } })
    else (false, bridge)

def AccessibilityBridge.resetAcknowledged (bridge : AccessibilityBridge) :
    Except Failure AccessibilityBridge :=
  if bridge.delivering then .error activeDelivery
  else .ok { bridge with differ := {}, transaction := none }

/-- What `publish` and `clear` hand to an adapter, and the differ as it will be once the
adapter has taken it. -/
structure BridgeDelivery where
  candidate : SemanticsDiffer
  update : SemanticsUpdate
  deriving DecidableEq

/-- `publish` and `clear` up to the call of the adapter. -/
def AccessibilityBridge.beginDelivery (bridge : AccessibilityBridge) (update : SemanticsUpdate)
    (candidate : SemanticsDiffer) : Option BridgeDelivery × AccessibilityBridge :=
  if update.isEmpty then (none, bridge)
  else (some ⟨candidate, update⟩, { bridge with delivering := true })

def AccessibilityBridge.publish (bridge : AccessibilityBridge) (tree : SemanticsTree) :
    Except Failure (Option BridgeDelivery × AccessibilityBridge) :=
  if bridge.delivering ∨ bridge.transaction.isSome then .error activeDelivery
  else match bridge.differ.update tree with
    | (.error failure, _) => .error failure
    | (.ok update, next) => .ok (bridge.beginDelivery update next)

def AccessibilityBridge.clear (bridge : AccessibilityBridge) :
    Except Failure (Option BridgeDelivery × AccessibilityBridge) :=
  if bridge.delivering ∨ bridge.transaction.isSome then .error activeDelivery
  else .ok (bridge.beginDelivery bridge.differ.clear.1 bridge.differ.clear.2)

/-- `publish` and `clear` from the return of the adapter on: nothing is changed in a bridge
that the adapter has destroyed. -/
def AccessibilityBridge.endDelivery (bridge : AccessibilityBridge) (delivery : BridgeDelivery)
    (alive : Bool) : Except Failure Unit → Except Failure Bool × AccessibilityBridge
  | .error failure => (.error failure, { bridge with delivering := false })
  | .ok () =>
    (.ok true, if alive then { bridge with differ := delivery.candidate, delivering := false }
      else { bridge with delivering := false })

end Dui
