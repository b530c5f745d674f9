import Dui.GestureArena
import Dui.HitTest

/-! `BuildOwner::dispatch_pointer`. A frame and an activation run code of the application, which
may change the tree, throw and destroy the owner; what it does is given with the event. -/
namespace Dui
open Effect Transition

structure PointerTapRoute where
  pointerId : PointerId
  route : List RenderId
  accepted : Bool := false
  rejected : Bool := false
  deriving DecidableEq, Repr

namespace PointerTapRoute

def acceptGesture (tap : PointerTapRoute) (pointer : PointerId) : PointerTapRoute :=
  if pointer = tap.pointerId ∧ tap.rejected = false then { tap with accepted := true } else tap

def rejectGesture (tap : PointerTapRoute) (pointer : PointerId) : PointerTapRoute :=
  if pointer = tap.pointerId then { tap with accepted := false, rejected := true } else tap

/-- Calls the callback of a verdict. -/
def tell (tap : PointerTapRoute) (pointer : PointerId) : Verdict → PointerTapRoute
  | .accept => tap.acceptGesture pointer
  | .reject => tap.rejectGesture pointer

end PointerTapRoute

/-- What code of the application does when it is called: the tree it leaves, whether the owner
is there after it, and what it throws. -/
structure Interlude where
  tree : RenderOwner
  alive : Bool := true
  failure : Option Failure := none

/-- An object of a route as `resolve` finds it when its turn comes. -/
structure Reached where
  id : RenderId
  object : Option RenderObject
  deriving DecidableEq

/-- What `BuildOwner` has for pointers: the render tree, whether a frame has been completed,
the arena and the routes, each under its number; what the application does next; and the
objects that were reached and activated by the last event. -/
structure TapOwner where
  tree : RenderOwner := .initially
  hasViewport : Bool := false
  alive : Bool := true
  gestureArena : GestureArena Nat := {}
  pointerTapRoutes : PointerId → Option Nat := fun _ => none
  taps : List PointerTapRoute := []
  interludes : List Interlude := []
  reached : List Reached := []
  activated : List RenderId := []

/-- Code that works on the owner. -/
abbrev Tapping := Run TapOwner Failure

namespace TapOwner
variable (owner : TapOwner)

/-- The verdicts of a resolution are given: the callbacks of a route neither throw nor call the
arena again. -/
def resolve (result : GestureArena Nat × Option (Resolution Nat)) : TapOwner :=
  { owner with
    gestureArena := result.1
    taps := match result.2 with
      | none => owner.taps
      | some resolution => resolution.verdicts.foldl (fun taps (member, verdict) =>
          taps.modify member (·.tell resolution.pointer verdict)) owner.taps }

def forgetRoute (pointer : PointerId) : TapOwner :=
  { owner with pointerTapRoutes := Function.update owner.pointerTapRoutes pointer none }

/-- Makes a route and stores it, unless there is one. -/
def storeRoute (pointer : PointerId) (route : List RenderId) : TapOwner :=
  { owner with
    taps := owner.taps ++ [{ pointerId := pointer, route }]
    pointerTapRoutes := Function.update owner.pointerTapRoutes pointer
      ((owner.pointerTapRoutes pointer).or (some owner.taps.length)) }

end TapOwner

/-- `can_activate`. -/
def RenderOwner.canActivate (tree : RenderOwner) (id : RenderId) : Bool :=
  (tree.objects id).any (·.kind.hasActivationHandler)

/-- The path under an event. Where a coordinate is not finite nothing is hit. -/
def RenderOwner.pathUnder (tree : RenderOwner) (event : PointerEvent) : Option HitTestResult :=
  match event.x, event.y with
  | some x, some y => tree.hitTestPath ⟨x, y⟩
  | _, _ => some []

/-- The objects of the path that can be activated. -/
def RenderOwner.activatable (tree : RenderOwner) (path : HitTestResult) : List RenderId :=
  (path.map (·.target)).filter tree.canActivate

/-- Code of the application runs. -/
def interlude : Tapping Unit := do
  match ← Run.read (·.interludes) with
  | [] => Run.diverge
  | { tree, alive, failure } :: rest =>
    Run.change fun owner => { owner with tree, alive, interludes := rest }
    match failure with
    | none => pure ()
    | some failure => Run.throw failure

/-- What every event but a cancellation begins with: a frame, and the hit test on what it leaves.
Nothing is defined if the owner does not outlive the frame. -/
def hitPathOf (event : PointerEvent) : Tapping HitTestResult := do
  if event.phase = .cancel then pure []
  else do
    if ← Run.read (!·.hasViewport) then
      Run.throw (.logicError "pointer dispatch requires a completed frame")
    else do
      interlude
      if ← Run.read (!·.alive) then Run.diverge
      else do
        match ← Run.read (·.tree.pathUnder event) with
        | none => Run.diverge
        | some path => pure path

/-- What can be activated is stored, and a recognizer for it joins the arena. -/
def storeTap (pointer : PointerId) (path : HitTestResult) : Tapping Unit := do
  let route ← Run.read fun owner => owner.tree.activatable path
  if route.isEmpty then pure ()
  else do
    let tap ← Run.read (·.taps.length)
    Run.change (·.storeRoute pointer route)
    match ← Run.read fun owner => owner.gestureArena.add pointer (some tap) with
    | .ok gestureArena => Run.change fun owner => { owner with gestureArena }
    | .error failure =>
      Run.change (·.forgetRoute pointer)
      Run.change fun owner => owner.resolve (owner.gestureArena.cancel pointer)
      Run.throw failure

def dispatchDown (pointer : PointerId) (path : HitTestResult) : Tapping Unit := do
  if ← Run.read fun owner => (owner.pointerTapRoutes pointer).isSome then do
    Run.change (·.forgetRoute pointer)
    Run.change fun owner => owner.resolve (owner.gestureArena.cancel pointer)
  storeTap pointer path

/-- `activate`: the callback runs if there is one. -/
def activate (id : RenderId) (object : RenderObject) : Tapping Bool := do
  Run.change fun owner => { owner with activated := owner.activated ++ [id] }
  if object.kind.hasActivationHandler then interlude
  pure object.kind.stopsPropagation

/-- The loop over the objects to activate. -/
def activateRoute : List RenderId → Tapping Unit
  | [] => pure ()
  | id :: rest => do
    if ← Run.read (!·.alive) then pure ()
    else do
      let object ← Run.read (·.tree.objects id)
      Run.change fun owner => { owner with reached := owner.reached ++ [⟨id, object⟩] }
      match object with
      | none => activateRoute rest
      | some object =>
        let stopsPropagation ← activate id object
        if ← Run.read (!·.alive) then pure ()
        else if stopsPropagation then pure ()
        else activateRoute rest

def dispatchUp (pointer : PointerId) (path : HitTestResult) : Tapping Unit := do
  let down ← Run.read (·.pointerTapRoutes pointer)
  Run.change (·.forgetRoute pointer)
  match down with
  | none => Run.change fun owner => owner.resolve (owner.gestureArena.cancel pointer)
  | some tap =>
    let currentTargets ← Run.read fun owner => owner.tree.activatable path
    let activationRoute ← Run.read fun owner =>
      (owner.taps[tap]?.elim [] (·.route)).filter (currentTargets.contains ·)
    if activationRoute.isEmpty then
      Run.change fun owner => owner.resolve (owner.gestureArena.reject pointer tap)
    else do
      Run.change fun owner => owner.resolve (owner.gestureArena.accept pointer tap)
      Run.change fun owner => owner.resolve (owner.gestureArena.close pointer)
    if ← Run.read fun owner => owner.taps[tap]?.any (·.accepted) then
      activateRoute activationRoute

def dispatchCancel (pointer : PointerId) : Tapping Unit := do
  Run.change (·.forgetRoute pointer)
  Run.change fun owner => owner.resolve (owner.gestureArena.cancel pointer)

/-- `BuildOwner::dispatch_pointer`. -/
def dispatchPointer (event : PointerEvent) : Tapping Unit := do
  let path ← hitPathOf event
  match event.phase with
  | .down => dispatchDown event.pointer path
  | .up => dispatchUp event.pointer path
  | .cancel => dispatchCancel event.pointer
  | .move | .unknown _ => pure ()

/-! Runs. -/

/-- Something changes the tree or completes a frame, or an event is dispatched. -/
inductive TapAction where
  | change (tree : RenderOwner) (hasViewport : Bool)
  | dispatch (event : PointerEvent) (interludes : List Interlude)

/-- The owner, how its last dispatch ended, and for each pointer what could be activated in the
path of its down, if it has not been up or canceled since. -/
structure TapRun where
  owner : TapOwner := {}
  outcome : Except Failure Unit := .ok ()
  downs : PointerId → List RenderId := fun _ => []

namespace TapRun
variable (run : TapRun)

/-- The tree that an event is tested against: that of its frame, if it gets so far. -/
def framed (event : PointerEvent) (interludes : List Interlude) : Option RenderOwner :=
  match interludes with
  | { tree, failure := none, .. } :: _ =>
    if event.phase = .cancel ∨ run.owner.hasViewport = false then none else some tree
  | _ => none

/-- What can be activated under an event. -/
def targets (event : PointerEvent) (tree : RenderOwner) : List RenderId :=
  tree.activatable ((tree.pathUnder event).getD [])

/-- What the pointers are down on after an event. -/
def downsAfter (event : PointerEvent) (interludes : List Interlude) :
    PointerId → List RenderId :=
  match event.phase, run.framed event interludes with
  | .cancel, _ => Function.update run.downs event.pointer []
  | .down, some tree => Function.update run.downs event.pointer (targets event tree)
  | .up, some _ => Function.update run.downs event.pointer []
  | _, _ => run.downs

def step : TapAction → Option TapRun
  | .change tree hasViewport =>
    if run.owner.alive then some { run with owner := { run.owner with tree, hasViewport } }
    else none
  | .dispatch event interludes =>
    if run.owner.alive then
      match dispatchPointer event { run.owner with interludes, reached := [], activated := [] } with
      | none => none
      | some (outcome, owner) =>
        some { owner, outcome, downs := run.downsAfter event interludes }
    else none

end TapRun

def tapMachine : Machine TapRun TapAction where
  init := (· = {})
  step := TapRun.step

end Dui
