import Mathlib.Data.Finset.Erase
import Mathlib.Data.Finset.Insert
import Mathlib.Data.List.Count
import Dui.HostState
import Dui.Transition

/-! The arenas in which gestures compete for pointers, and the calls of their members' verdicts.
Such a callback may call the arena again and may throw, so a resolution goes on in steps: while
one of its callbacks runs, anything can be called. -/
namespace Dui
open Transition

inductive Verdict where
  | accept
  | reject
  deriving DecidableEq, Repr

/-- `GestureArena::ArenaState`. -/
structure ArenaState (μ : Type) where
  closed : Bool := false
  members : List μ := []
  eagerWinner : Option μ := none
  deriving DecidableEq, Repr

/-- `GestureArena`: its `Storage`. -/
structure GestureArena (μ : Type) where
  arenas : PointerId → Option (ArenaState μ) := fun _ => none
  resolving : Finset PointerId := ∅

/-- The verdicts that a call has to give, in this order. -/
structure Resolution (μ : Type) where
  pointer : PointerId
  verdicts : List (μ × Verdict)
  deriving DecidableEq, Repr

/-- The verdicts of a resolution, if there is one. -/
def verdictsOf {μ : Type} (resolution : Option (Resolution μ)) : List (μ × Verdict) :=
  resolution.elim [] Resolution.verdicts

namespace GestureArena
variable {μ : Type} [DecidableEq μ] (arena : GestureArena μ) (pointer : PointerId)

def put (state : Option (ArenaState μ)) : GestureArena μ :=
  { arena with arenas := Function.update arena.arenas pointer state }

def add (member : Option μ) : Except Failure (GestureArena μ) :=
  match member with
  | none => .error (.invalidArgument "GestureArena member cannot be null")
  | some member =>
    if pointer ∈ arena.resolving then
      .error (.logicError "Cannot recreate a GestureArena during resolution callbacks")
    else
      let state := (arena.arenas pointer).getD {}
      if state.closed then
        .error (.logicError "Cannot add a member to a closed GestureArena")
      else if member ∈ state.members then
        .error (.logicError "GestureArena member was added twice")
      else .ok (arena.put pointer (some { state with members := state.members ++ [member] }))

/-- `resolve_winner`. -/
def resolveWinner (winner : μ) : GestureArena μ × Option (Resolution μ) :=
  match arena.arenas pointer with
  | none => (arena, none)
  | some state =>
    (arena.put pointer none,
      some { pointer, verdicts := (winner, .accept) ::
        (state.members.filter (· ≠ winner)).map fun member => (member, .reject) })

def close : GestureArena μ × Option (Resolution μ) :=
  if pointer ∈ arena.resolving then (arena, none)
  else
    match arena.arenas pointer with
    | none => (arena, none)
    | some state =>
      let closed := arena.put pointer (some { state with closed := true })
      match state.eagerWinner, state.members with
      | some winner, _ => closed.resolveWinner pointer winner
      | none, [only] => closed.resolveWinner pointer only
      | none, [] => (closed.put pointer none, none)
      | none, _ => (closed, none)

def accept (member : μ) : GestureArena μ × Option (Resolution μ) :=
  if pointer ∈ arena.resolving then (arena, none)
  else
    match arena.arenas pointer with
    | none => (arena, none)
    | some state =>
      if member ∉ state.members then (arena, none)
      else if state.closed then arena.resolveWinner pointer member
      else if state.eagerWinner = none then
        (arena.put pointer (some { state with eagerWinner := some member }), none)
      else (arena, none)

def reject (member : μ) : GestureArena μ × Option (Resolution μ) :=
  if pointer ∈ arena.resolving then (arena, none)
  else
    match arena.arenas pointer with
    | none => (arena, none)
    | some state =>
      if member ∉ state.members then (arena, none)
      else
        let left : ArenaState μ :=
          { state with
            members := state.members.erase member
            eagerWinner := if state.eagerWinner = some member then none else state.eagerWinner }
        match left.members, left.closed with
        | [], _ => (arena.put pointer none, some { pointer, verdicts := [(member, .reject)] })
        | [winner], true =>
          (arena.put pointer none,
            some { pointer, verdicts := [(member, .reject), (winner, .accept)] })
        | _, _ =>
          (arena.put pointer (some left), some { pointer, verdicts := [(member, .reject)] })

def sweep : GestureArena μ × Option (Resolution μ) :=
  if pointer ∈ arena.resolving then (arena, none)
  else
    match arena.arenas pointer with
    | none => (arena, none)
    | some state =>
      match state.members with
      | [] => (arena.put pointer none, none)
      | first :: _ => arena.resolveWinner pointer first

def cancel : GestureArena μ × Option (Resolution μ) :=
  if pointer ∈ arena.resolving then (arena, none)
  else
    match arena.arenas pointer with
    | none => (arena, none)
    | some state =>
      (arena.put pointer none,
        some { pointer, verdicts := state.members.map fun member => (member, .reject) })

end GestureArena

/-- The calls of an arena. -/
inductive ArenaCall (μ : Type) where
  | add (pointer : PointerId) (member : Option μ)
  | close (pointer : PointerId)
  | accept (pointer : PointerId) (member : μ)
  | reject (pointer : PointerId) (member : μ)
  | sweep (pointer : PointerId)
  | cancel (pointer : PointerId)
  deriving DecidableEq, Repr

namespace ArenaCall
variable {μ : Type}

def pointer : ArenaCall μ → PointerId
  | .add pointer _ | .close pointer | .accept pointer _ | .reject pointer _ | .sweep pointer
  | .cancel pointer => pointer

end ArenaCall

/-- What a call does before any callback runs: the arenas it leaves, and the verdicts to be
given. -/
def GestureArena.perform {μ : Type} [DecidableEq μ] (arena : GestureArena μ) :
    ArenaCall μ → Except Failure (GestureArena μ × Option (Resolution μ))
  | .add pointer member => (arena.add pointer member).map fun arena => (arena, none)
  | .close pointer => .ok (arena.close pointer)
  | .accept pointer member => .ok (arena.accept pointer member)
  | .reject pointer member => .ok (arena.reject pointer member)
  | .sweep pointer => .ok (arena.sweep pointer)
  | .cancel pointer => .ok (arena.cancel pointer)

/-! Runs. Every arena has a number among those of its pointer. -/

/-- A resolution under way: the arena it is about, the verdicts still to be given, whether a
callback is running, and the first failure of one. -/
structure ArenaFrame (μ : Type) where
  pointer : PointerId
  number : Nat
  verdicts : List (μ × Verdict)
  running : Bool := false
  failure : Option Failure := none
  deriving DecidableEq, Repr

/-- What happens to the members of an arena. A winner is recorded with the members that had
claimed the arena. -/
inductive ArenaEvent (μ : Type) where
  | added (pointer : PointerId) (number : Nat) (member : μ)
  | won (pointer : PointerId) (number : Nat) (winner : μ) (claims : List μ)
  | told (pointer : PointerId) (number : Nat) (member : μ) (verdict : Verdict)
  deriving DecidableEq, Repr

/-- The arenas with the resolutions under way, the innermost first, and how the last operation
to end did so; how many arenas of each pointer are gone, who has accepted in the open ones
without being rejected since, in that order, and all that has happened. -/
structure ArenaRun (μ : Type) where
  arena : GestureArena μ := {}
  stack : List (ArenaFrame μ) := []
  outcome : Except Failure Unit := .ok ()
  number : PointerId → Nat := fun _ => 0
  claims : PointerId → List μ := fun _ => []
  log : List (ArenaEvent μ) := []

/-- A call, or a step of the innermost resolution: it gives the next verdict, the callback ends,
or the resolution does. -/
inductive ArenaAction (μ : Type) where
  | call (call : ArenaCall μ)
  | tell
  | callbackEnds (failure : Option Failure)
  | resolved

namespace ArenaRun
variable {μ : Type} [DecidableEq μ] (run : ArenaRun μ)

/-- Is other code running than that of the arena? -/
def mayCall : Bool := run.stack.head?.all (·.running)

/-- Who has claimed the arena of the pointer after a call. -/
def claimsAfter (call : ArenaCall μ) (next : GestureArena μ) : List μ :=
  match run.arena.arenas call.pointer, next.arenas call.pointer with
  | some state, some _ =>
    match call with
    | .accept pointer member =>
      if pointer ∉ run.arena.resolving ∧ state.closed = false ∧ member ∈ state.members ∧
          member ∉ run.claims pointer then
        run.claims pointer ++ [member]
      else run.claims pointer
    | .reject pointer member =>
      if pointer ∉ run.arena.resolving then (run.claims pointer).erase member
      else run.claims pointer
    | _ => run.claims call.pointer
  | _, _ => []

/-- Who is added by a call. -/
def addedBy (call : ArenaCall μ) : List (ArenaEvent μ) :=
  match call with
  | .add pointer (some member) => [.added pointer (run.number pointer) member]
  | _ => []

/-- Who has claimed the arena when a call resolves it; a member that is rejected has not. -/
def claimsOf (call : ArenaCall μ) : List μ :=
  match call with
  | .reject pointer member => (run.claims pointer).erase member
  | _ => run.claims call.pointer

/-- Who wins by a call. -/
def wonBy (call : ArenaCall μ) (resolution : Option (Resolution μ)) : List (ArenaEvent μ) :=
  (verdictsOf resolution).filterMap fun
    | (winner, .accept) =>
      some (.won call.pointer (run.number call.pointer) winner (run.claimsOf call))
    | (_, .reject) => none

/-- The state once a call has changed the arenas. -/
def begin (call : ArenaCall μ) (next : GestureArena μ) (resolution : Option (Resolution μ)) :
    ArenaRun μ :=
  let pointer := call.pointer
  let number := run.number pointer
  let gone := (run.arena.arenas pointer).isSome && (next.arenas pointer).isNone
  { run with
    arena := match resolution with
      | none => next
      | some resolution => { next with resolving := insert resolution.pointer next.resolving }
    stack := match resolution with
      | none => run.stack
      | some resolution =>
        { pointer := resolution.pointer, number, verdicts := resolution.verdicts } :: run.stack
    outcome := .ok ()
    number := if gone then Function.update run.number pointer (number + 1) else run.number
    claims := Function.update run.claims pointer (run.claimsAfter call next)
    log := run.log ++ run.addedBy call ++ run.wonBy call resolution }

def step : ArenaAction μ → Option (ArenaRun μ)
  | .call call =>
    if run.mayCall then
      match run.arena.perform call with
      | .error failure => some { run with outcome := .error failure }
      | .ok (next, resolution) => some (run.begin call next resolution)
    else none
  | .tell =>
    match run.stack with
    | { running := false, verdicts := (member, verdict) :: rest, pointer, number, failure } :: below =>
      some { run with
        stack := { pointer, number, verdicts := rest, running := true, failure } :: below
        log := run.log ++ [.told pointer number member verdict] }
    | _ => none
  | .callbackEnds failure =>
    match run.stack with
    | { running := true, verdicts, pointer, number, failure := earlier } :: below =>
      some { run with
        stack := { pointer, number, verdicts, failure := earlier.or failure } :: below }
    | _ => none
  | .resolved =>
    match run.stack with
    | { running := false, verdicts := [], pointer, failure, .. } :: below =>
      some { run with
        arena := { run.arena with resolving := run.arena.resolving.erase pointer }
        stack := below
        outcome := failure.elim (.ok ()) .error }
    | _ => none

end ArenaRun

def arenaMachine (μ : Type) [DecidableEq μ] : Machine (ArenaRun μ) (ArenaAction μ) where
  init := (· = {})
  step := ArenaRun.step

end Dui
