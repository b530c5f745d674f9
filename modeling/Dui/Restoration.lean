import Mathlib.Algebra.Order.Ring.Int
import Mathlib.Data.List.Sort
import Mathlib.Order.Lex
import Mathlib.Data.List.Lex
import Dui.BuildModel
import Dui.Effect
import Dui.Transition

/-! The state slots of an owner's elements and the restoration of their values: named
slots declared as plain or as restorable, records taken over from a snapshot until a
slot claims them, and the snapshot made of both. -/
namespace Dui
open Effect

abbrev ByteString := List UInt8

/-- `hash_name`. -/
def hashName (name : ByteString) : UInt64 :=
  name.foldl (fun hash character => (hash ^^^ character.toUInt64) * 1099511628211)
    14695981039346656037

/-- What a state type is to restoration: a boolean, an integral of so many bits, a string,
or something that cannot be restored. -/
inductive StateKind where
  | bool
  | signed (bits : Nat)
  | unsigned (bits : Nat)
  | text
  | other
  deriving DecidableEq, Repr

/-- The values of a type. -/
abbrev StateKind.Value : StateKind → Type
  | .bool => Bool
  | .signed bits => { value : Int // -2 ^ (bits - 1) ≤ value ∧ value < 2 ^ (bits - 1) }
  | .unsigned bits => Fin (2 ^ bits)
  | .text => ByteString
  | .other => Nat

instance StateKind.decideValue : (kind : StateKind) → DecidableEq kind.Value
  | .bool => inferInstanceAs (DecidableEq Bool)
  | .signed bits => inferInstanceAs
      (DecidableEq { value : Int // -2 ^ (bits - 1) ≤ value ∧ value < 2 ^ (bits - 1) })
  | .unsigned bits => inferInstanceAs (DecidableEq (Fin (2 ^ bits)))
  | .text => inferInstanceAs (DecidableEq (List UInt8))
  | .other => inferInstanceAs (DecidableEq Nat)

/-- A C++ type, which its token tells apart from others of its kind. -/
structure StateType where
  token : TypeToken
  kind : StateKind
  deriving DecidableEq, Repr

/-- The concept `RestorableStateValue`. -/
def StateKind.restorable : StateKind → Bool
  | .bool | .text => true
  | .signed bits => 1 ≤ bits && bits ≤ 64
  | .unsigned bits => bits ≤ 64
  | .other => false

inductive RestorationValue where
  | bool (value : Bool)
  | int64 (value : Int64)
  | uint64 (value : UInt64)
  | text (value : ByteString)
  deriving DecidableEq

structure RestorationRecord where
  id : ByteString
  value : RestorationValue
  deriving DecidableEq

/-- `encode_restoration_value`, where the type can be restored. -/
def encodeRestorationValue : (kind : StateKind) → kind.Value → Option RestorationValue
  | .bool, value => some (.bool value)
  | .signed _, value => some (.int64 (.ofInt value.val))
  | .unsigned _, value => some (.uint64 (.ofNat value.val))
  | .text, value => some (.text value)
  | .other, _ => none

/-- `decode_restoration_value`. -/
def decodeRestorationValue : (kind : StateKind) → RestorationValue → Except Failure kind.Value
  | .bool, .bool value => .ok value
  | .text, .text value => .ok value
  | .signed bits, .int64 value =>
    if fits : -2 ^ (bits - 1) ≤ value.toInt ∧ value.toInt < 2 ^ (bits - 1) then
      .ok ⟨value.toInt, fits⟩
    else .error (.invalidArgument "Restoration value does not fit signed state")
  | .unsigned bits, .uint64 value =>
    if fits : value.toNat < 2 ^ bits then .ok ⟨value.toNat, fits⟩
    else .error (.invalidArgument "Restoration value does not fit unsigned state")
  | .signed _, _ => .error (.invalidArgument "Restoration value does not fit signed state")
  | .unsigned _, _ => .error (.invalidArgument "Restoration value does not fit unsigned state")
  | .bool, _ | .text, _ | .other, _ =>
    .error (.invalidArgument "Restoration value category does not match state")

/-- `Element::StateSlot`. -/
structure StateSlot where
  name : ByteString
  type : StateType
  value : type.kind.Value
  restorationId : Option ByteString := none
  restorationValue : Option RestorationValue := none

/-- The value, if it has this type. -/
def StateSlot.valueAs (slot : StateSlot) (type : StateType) : Option type.kind.Value :=
  if same : slot.type = type then some (same ▸ slot.value) else none

/-- A slot is found by its element and the hash of its name. -/
abbrev SlotKey := ElementId × UInt64

/-- What `BuildOwner` knows of its elements' states. -/
structure StateOwner where
  root : Bool := false
  registry : List ElementId := []
  mountCount : Nat := 0
  nextId : ElementId := 1
  slots : List (SlotKey × StateSlot) := []
  pending : List RestorationRecord := []
  reconciling : Bool := false
  framing : Bool := false
  formatting : Bool := false

namespace StateOwner

/-- An operation of the owner is active. -/
def busy (owner : StateOwner) : Bool := owner.reconciling || owner.framing || owner.formatting

def findSlot (owner : StateOwner) (key : SlotKey) : Option StateSlot :=
  (owner.slots.find? (·.1 = key)).map (·.2)

/-- Sets one slot, which need not have been there. -/
def setSlot (owner : StateOwner) (key : SlotKey) (slot : StateSlot) : StateOwner :=
  { owner with slots := owner.slots.filter (·.1 ≠ key) ++ [(key, slot)] }

/-- `restoration_id_in_use`. -/
def restorationIdInUse (owner : StateOwner) (id : ByteString) (key : SlotKey) : Bool :=
  owner.slots.any fun entry => entry.1 ≠ key && entry.2.restorationId = some id

/-- Makes a slot restorable under an id, with its value cached. -/
def adopt (owner : StateOwner) (key : SlotKey) (slot : StateSlot) (id : ByteString) : StateOwner :=
  owner.setSlot key { slot with
    restorationId := some id
    restorationValue := encodeRestorationValue slot.type.kind slot.value }

def mount (owner : StateOwner) (isRoot : Bool) : StateOwner :=
  { owner with
    root := owner.root || isRoot
    registry := owner.registry ++ [owner.nextId]
    nextId := owner.nextId + 1
    mountCount := owner.mountCount + 1 }

def unmount (owner : StateOwner) (element : ElementId) (isRoot : Bool) : StateOwner :=
  { owner with
    root := owner.root && !isRoot
    registry := owner.registry.filter (· ≠ element)
    slots := owner.slots.filter (·.1.1 ≠ element) }

end StateOwner

/-- A computation on the owner's states. -/
abbrev Stating (β : Type) := Run StateOwner Failure β

/-- Throws unless the condition is false. -/
def refuse {σ : Type} (condition : σ → Bool) (failure : Failure) : Run σ Failure Unit := do
  if ← Run.read condition then Run.throw failure else pure ()

/-- The slot for a declaration: one that is there has its name and its type. -/
def declaredSlot (key : SlotKey) (name : ByteString) (type : StateType) :
    Stating (Option StateSlot) := do
  let slot ← Run.read (·.findSlot key)
  if slot.any (·.name ≠ name) then Run.throw (.logicError "Named state hash collision")
  else if slot.any (·.type ≠ type) then Run.throw (.logicError "Named state changed type")
  else pure slot

private def formatterDeclares : Failure :=
  .logicError "BuildContext cannot declare state from an inspector formatter"

/-- `BuildContext::state`. -/
def declarePlain (element : ElementId) (name : ByteString) (type : StateType)
    (initial : type.kind.Value) : Stating Unit := do
  refuse (·.formatting) formatterDeclares
  let key := (element, hashName name)
  let slot ← declaredSlot key name type
  let slot := slot.getD { name, type, value := initial }
  Run.change (·.setSlot key { slot with restorationId := none, restorationValue := none })

/-- The value of a slot declared for the first time: a pending record's, if there is one. -/
def firstValue (type : StateType) (initial : type.kind.Value) :
    Option RestorationRecord → Stating type.kind.Value
  | none => pure initial
  | some record => Run.resume (decodeRestorationValue type.kind record.value)

/-- The slot a restorable declaration goes on with, made now if it is not there. -/
def claimSlot (key : SlotKey) (name : ByteString) (type : StateType) (initial : type.kind.Value)
    (id : ByteString) : Option StateSlot → Stating StateSlot
  | some slot => pure slot
  | none => do
    let pending ← Run.read (·.pending.find? (·.id = id))
    let value ← firstValue type initial pending
    Run.change (·.setSlot key { name, type, value })
    pure { name, type, value }

/-- `BuildContext::restorable_state`. -/
def declareRestorable (element : ElementId) (name : ByteString) (type : StateType)
    (initial : type.kind.Value) (id : ByteString) : Stating Unit := do
  refuse (·.formatting) formatterDeclares
  refuse (fun _ => id.isEmpty) (.invalidArgument "Restoration ID must not be empty")
  let key := (element, hashName name)
  let slot ← declaredSlot key name type
  refuse (·.restorationIdInUse id key) (.logicError "Restoration ID is already in use")
  let slot ← claimSlot key name type initial id slot
  Run.change (·.adopt key slot id)
  Run.change fun owner => { owner with pending := owner.pending.filter (·.id ≠ id) }

private def invalidHandle : Failure :=
  .logicError "StateHandle has an invalid state slot or type"

/-- `StateHandle::set`. -/
def writeSlot (key : SlotKey) (type : StateType) (value : type.kind.Value) : Stating Unit := do
  refuse (·.formatting) (.logicError "StateHandle cannot mutate state from an inspector formatter")
  refuse (fun owner => !owner.registry.contains key.1)
    (.logicError "StateHandle refers to an unmounted Element")
  match ← Run.read (·.findSlot key) with
  | none => Run.throw invalidHandle
  | some slot =>
    match slot.valueAs type with
    | none => Run.throw invalidHandle
    | some current =>
      if current = value then pure ()
      else if slot.restorationId.isNone then
        Run.change (·.setSlot key { slot with type, value })
      else match encodeRestorationValue type.kind value with
        | none => Run.throw (.logicError "State slot has unsupported restoration metadata")
        | some restored =>
          Run.change (·.setSlot key { slot with type, value, restorationValue := some restored })

/-- The records of a snapshot, checked one after the other. -/
def stageRecords (staged : List RestorationRecord) :
    List RestorationRecord → Stating (List RestorationRecord)
  | [] => pure staged
  | record :: rest =>
    if record.id.isEmpty then
      Run.throw (.invalidArgument "Restoration snapshot contains an empty ID")
    else if staged.any (·.id = record.id) then
      Run.throw (.invalidArgument "Restoration snapshot contains duplicate IDs")
    else stageRecords (staged ++ [record]) rest

/-- `BuildOwner::restore_state`. -/
def restoreState (snapshot : List RestorationRecord) : Stating Unit := do
  refuse StateOwner.busy
    (.logicError "BuildOwner cannot restore state during an active owner operation")
  refuse (fun owner => owner.root || !owner.registry.isEmpty || owner.mountCount ≠ 0)
    (.logicError "BuildOwner can restore state only before its first mount")
  let staged ← stageRecords [] snapshot
  Run.change fun owner => { owner with pending := staged }

/-- `BuildOwner::discard_pending_restoration`. -/
def discardPendingRestoration : Stating Unit := do
  refuse StateOwner.busy
    (.logicError "BuildOwner cannot discard restoration state during an active owner operation")
  Run.change fun owner => { owner with pending := [] }

/-- The records of the restorable slots. -/
def liveRecords : List (SlotKey × StateSlot) → Except Failure (List RestorationRecord)
  | [] => .ok []
  | (_, slot) :: rest =>
    match slot.restorationId, slot.restorationValue with
    | none, _ => liveRecords rest
    | some _, none => .error (.logicError "Restorable state has no cached value")
    | some id, some value => (liveRecords rest).map (⟨id, value⟩ :: ·)

/-- The order of `std::ranges::sort` by id. -/
def recordLE (first second : RestorationRecord) : Prop :=
  first.id.map UInt8.toNat ≤ second.id.map UInt8.toNat

instance : DecidableRel recordLE := fun first second =>
  inferInstanceAs (Decidable (first.id.map UInt8.toNat ≤ second.id.map UInt8.toNat))

/-- `BuildOwner::save_restoration_state`. -/
def saveRestorationState (owner : StateOwner) : Except Failure (List RestorationRecord) :=
  if owner.busy then
    .error (.logicError "BuildOwner cannot save restoration state during an active owner operation")
  else match liveRecords owner.slots with
    | .error failure => .error failure
    | .ok live =>
      let records := (owner.pending ++ live).insertionSort recordLE
      if (records.zip records.tail).any fun pair => pair.1.id = pair.2.id then
        .error (.logicError "BuildOwner contains duplicate restoration IDs")
      else .ok records

/-- What can happen to the states of an owner: an operation begins or ends, elements are
mounted and unmounted, and the application's calls. The declarations name a type, and
the restorable one a type that can be restored. -/
inductive StateAction where
  | setReconciling (value : Bool)
  | setFraming (value : Bool)
  | setFormatting (value : Bool)
  | mount (isRoot : Bool)
  | unmount (element : ElementId) (isRoot : Bool)
  | declarePlain (element : ElementId) (name : ByteString) (type : StateType)
      (initial : type.kind.Value)
  | declareRestorable (element : ElementId) (name : ByteString) (type : StateType)
      (initial : type.kind.Value) (id : ByteString) (restorable : type.kind.restorable = true)
  | write (key : SlotKey) (type : StateType) (value : type.kind.Value)
  | restore (snapshot : List RestorationRecord)
  | discard

/-- A build context refers to a mounted element. -/
def whereMounted (element : ElementId) (run : Stating Unit) : Stating Unit := fun owner =>
  if owner.registry.contains element then run owner else none

/-- Performs an action. -/
def performState : StateAction → Stating Unit
  | .setReconciling reconciling => Run.change fun owner => { owner with reconciling }
  | .setFraming framing => Run.change fun owner => { owner with framing }
  | .setFormatting formatting => Run.change fun owner => { owner with formatting }
  | .mount isRoot => Run.change (·.mount isRoot)
  | .unmount element isRoot => Run.change (·.unmount element isRoot)
  | .declarePlain element name type initial =>
    whereMounted element (declarePlain element name type initial)
  | .declareRestorable element name type initial id _ =>
    whereMounted element (declareRestorable element name type initial id)
  | .write key type value => writeSlot key type value
  | .restore snapshot => restoreState snapshot
  | .discard => discardPendingRestoration

/-- An owner from its construction on. What an action that throws has done stays. -/
def stateMachine : Transition.Machine StateOwner StateAction where
  init owner := owner = {}
  step owner action := (performState action owner).map (·.2)

end Dui
