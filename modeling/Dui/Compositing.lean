import Mathlib.Data.Finset.Filter
import Dui.DisplayList
import Dui.PaintedLayout

/-! Retained compositing. A repaint boundary keeps what was recorded of it, in chunks, and the
layer composed of the chunks. A frame records the boundaries that need paint, composes those
again that are above one of them, and leaves all others as they are. -/
namespace Dui
open Effect Transition

/-- `RenderBox::BoundaryChunk`. -/
inductive BoundaryChunk where
  | display (display : DisplayList)
  | child (id : RenderId) (offset : Offset)
  | clipBegin (rect : Rect)
  | clipEnd

/-- `RenderOwner`, with what its boxes retain. -/
structure Compositor where
  owner : RenderOwner
  boundaryChunks : RenderId → List BoundaryChunk := fun _ => []
  retainedLayer : RenderId → LayerPtr := fun _ => none
  paintCount : RenderId → Nat := fun _ => 0
  lastLayerTree : Layer.Tree

/-- Code that works on the render tree and on what is retained of it. -/
abbrev Compositing := Run Compositor Failure

/-- The empty `LayerTree` has a size. -/
theorem no_frame_sized : checkSize {} = .ok () := rfl

/-- The constructor. -/
def Compositor.initially : Compositor where
  owner := RenderOwner.initially
  lastLayerTree := { sized := no_frame_sized }

/-! What the classes paint. -/

namespace RenderObject
variable (object : RenderObject)

/-- `paint_clip`. -/
def paintClip (offset : Offset) : Option Rect :=
  match object.kind with
  | .viewport .. => some ⟨offset, object.measure.size⟩
  | _ => none

/-- `paint`. -/
def paint (builder : DisplayListBuilder) (offset : Offset) : DisplayListBuilder :=
  match object.kind with
  | .text text _ => builder.drawText text offset
  | .image asset .. => builder.drawImage asset ⟨offset, object.measure.size⟩
  | .coloredBox color => builder.drawRect ⟨offset, object.measure.size⟩ color
  | _ => builder

end RenderObject

/-! Recording. -/

/-- The `Recorder` of `record_boundary`. -/
structure Recorder where
  builder : DisplayListBuilder := {}
  chunks : List BoundaryChunk := []
  painted : List RenderId := []

namespace Recorder
variable (recorder : Recorder)

/-- `flush`. -/
def flush : Except Failure Recorder :=
  if recorder.builder.commands = [] then .ok recorder
  else do
    let display ← recorder.builder.build
    .ok { recorder with builder := {}, chunks := recorder.chunks ++ [.display display] }

/-- A chunk after what has been drawn so far. -/
def addChunk (chunk : BoundaryChunk) : Except Failure Recorder := do
  let flushed ← recorder.flush
  .ok { flushed with chunks := flushed.chunks ++ [chunk] }

/-- The begin of a clip, where the object has one. -/
def beginClip : Option Rect → Except Failure Recorder
  | some rect => recorder.addChunk (.clipBegin rect)
  | none => .ok recorder

def endClip : Option Rect → Except Failure Recorder
  | some _ => recorder.addChunk .clipEnd
  | none => .ok recorder

/-- Paints an object, which is noted. -/
def paint (id : RenderId) (object : RenderObject) (offset : Offset) : Recorder :=
  { recorder with
    builder := object.paint recorder.builder offset
    painted := recorder.painted ++ [id] }

end Recorder

section Recording
variable (ensure : RenderId → Compositing Unit)

/-- The loop of `record` over the children in the paint range. -/
def recordChildren (record : RenderId → Offset → Recorder → Compositing Recorder)
    (offset : Offset) : List RenderId → Recorder → Compositing Recorder
  | [], recorder => pure recorder
  | child :: rest, recorder => do
    match ← Run.read (·.owner.objects child) with
    | none => Run.diverge
    | some object =>
      let childOffset := offset + object.offset
      if object.kind.hasRepaintBoundary then
        ensure child
        let recorder ← Run.resume (recorder.addChunk (.child child childOffset))
        recordChildren record offset rest recorder
      else
        let recorder ← record child childOffset recorder
        recordChildren record offset rest recorder

/-- The `record` of `record_boundary`, down to some depth. -/
def recordObject : Nat → RenderId → Offset → Recorder → Compositing Recorder
  | 0, _, _, _ => Run.diverge
  | fuel + 1, id, offset, recorder => do
    match ← Run.read (·.owner.objects id) with
    | none => Run.diverge
    | some object =>
      let recorder ← Run.resume (recorder.beginClip (object.paintClip offset))
      let recorder := recorder.paint id object offset
      let (firstChild, lastChild) := object.paintChildRange
      if firstChild > lastChild ∨ lastChild > object.children.length then
        Run.throw (.logicError "RenderObject returned an invalid paint child range")
      else
        let recorder ←
          recordChildren ensure (recordObject fuel) offset object.paintChildren recorder
        Run.resume (recorder.endClip (object.paintClip offset))

/-! Composing. -/

/-- `LayerFrame`. -/
structure LayerFrame where
  clip : Option Rect := none
  layers : List LayerPtr := []

/-- The frames of `compose_boundary`: the last of them, and those before it. -/
structure LayerFrames where
  back : LayerFrame := {}
  before : List LayerFrame := []

def LayerFrames.pushLayer (frames : LayerFrames) (layer : Layer) : LayerFrames :=
  { frames with back := { frames.back with layers := frames.back.layers ++ [some layer] } }

def unbalancedClips : Failure := .logicError "Retained boundary clip chunks are unbalanced"

/-- What ends a clip: its layers become one of the frame before. -/
def LayerFrames.endClip (frames : LayerFrames) : Except Failure LayerFrames :=
  match frames.back.clip, frames.before with
  | some rect, outer :: before => do
    let contents ← containerLayer frames.back.layers
    let clipped ← clipRectLayer rect (some contents)
    .ok (LayerFrames.pushLayer ⟨outer, before⟩ clipped)
  | _, _ => .error unbalancedClips

/-- What a chunk adds to the frames. -/
def composeChunk (frames : LayerFrames) : BoundaryChunk → Compositing LayerFrames
  | .display display => pure (frames.pushLayer (.displayList display))
  | .clipBegin rect => pure ⟨{ clip := some rect }, frames.back :: frames.before⟩
  | .clipEnd => Run.resume frames.endClip
  | .child id offset => do
    if ← Run.read (·.owner.isRepaintBoundary id) then
      ensure id
      let layer ← Run.resume (offsetLayer offset (← Run.read (·.retainedLayer id)))
      pure (frames.pushLayer layer)
    else Run.throw (.logicError "Retained boundary slot no longer resolves")

/-- The loop over the chunks. -/
def composeChunks : LayerFrames → List BoundaryChunk → Compositing LayerFrames
  | frames, [] => pure frames
  | frames, chunk :: rest => do
    let frames ← composeChunk ensure frames chunk
    composeChunks frames rest

end Recording

namespace Compositor
variable (compositor : Compositor) (id : RenderId)

/-- A boundary has this layer now. -/
def retain (layer : Layer) : Compositor :=
  { compositor with
    retainedLayer := Function.update compositor.retainedLayer id (some layer)
    owner :=
      { compositor.owner with
        paint :=
          { compositor.owner.paint with
            needsCompositing := Function.update compositor.owner.paint.needsCompositing id false
            dirtyCompositing := compositor.owner.paint.dirtyCompositing.erase id } } }

def keepChunks (chunks : List BoundaryChunk) : Compositor :=
  { compositor with boundaryChunks := Function.update compositor.boundaryChunks id chunks }

/-- The end of `record_boundary`: what was painted does not need it any more. -/
def finishRecording (painted : List RenderId) : Compositor :=
  { compositor with
    paintCount := fun other => compositor.paintCount other + painted.count other
    owner :=
      { compositor.owner with
        paint :=
          { needsPaint := fun other => compositor.owner.paint.needsPaint other && other ∉ painted
            needsCompositing := Function.update compositor.owner.paint.needsCompositing id false
            dirtyPaint := compositor.owner.paint.dirtyPaint.filter (· ∉ painted)
            dirtyCompositing := compositor.owner.paint.dirtyCompositing.erase id } } }

/-- The end of `composite_frame`. -/
def finishFrame (tree : Layer.Tree) : Compositor :=
  { compositor with
    lastLayerTree := tree
    owner := { compositor.owner with hasCompletedFrame := true } }

end Compositor

section Boundaries
variable (ensure : RenderId → Compositing Unit) (id : RenderId)

/-- `compose_boundary`. -/
def composeBoundary : Compositing Unit := do
  let frames ← composeChunks ensure {} (← Run.read (·.boundaryChunks id))
  if frames.before = [] then
    let layer ← Run.resume (containerLayer frames.back.layers)
    Run.change (·.retain id layer)
  else Run.throw unbalancedClips

/-- `record_boundary`. -/
def recordBoundary : Compositing Unit := do
  let recorder ← recordObject ensure (← Run.read (·.owner.nextId)) id {} {}
  let recorder ← Run.resume recorder.flush
  let previous ← Run.read (·.boundaryChunks id)
  Run.change (·.keepChunks id recorder.chunks)
  match ← Run.attempt (composeBoundary ensure id) with
  | .error failure =>
    Run.change (·.keepChunks id previous)
    Run.throw failure
  | .ok () => Run.change (·.finishRecording id recorder.painted)

end Boundaries

/-- `ensure_boundary`, down to some depth. -/
def ensureBoundary : Nat → RenderId → Compositing Unit
  | 0, _ => Run.diverge
  | fuel + 1, id => do
    let compositor ← Run.read fun compositor => compositor
    if !compositor.owner.isRepaintBoundary id then
      Run.throw (.logicError "Retained layer requested for a non-boundary RenderBox")
    else if compositor.owner.paint.needsPaint id || (compositor.retainedLayer id).isNone then
      recordBoundary (ensureBoundary fuel) id
    else if compositor.owner.paint.needsCompositing id then
      composeBoundary (ensureBoundary fuel) id
    else pure ()

/-- The size of the root. -/
def RenderOwner.rootSize (owner : RenderOwner) : Size :=
  ((owner.objects owner.root).map (·.measure.size)).getD {}

/-- `composite_frame`. -/
def RenderOwner.compositeFrame : Compositing Layer.Tree := do
  let before ← Run.read fun compositor => compositor
  if before.owner.paint.dirtyPaint = ∅ ∧ before.owner.paint.dirtyCompositing = ∅ ∧
      before.lastLayerTree.root.isSome then
    pure before.lastLayerTree
  else
    ensureBoundary before.owner.nextId before.owner.root
    Run.change fun compositor =>
      { compositor with
        owner :=
          { compositor.owner with
            paint := { compositor.owner.paint with dirtyPaint := ∅, dirtyCompositing := ∅ } } }
    let after ← Run.read fun compositor => compositor
    let tree ← Run.resume (layerTree after.owner.rootSize (after.retainedLayer after.owner.root))
    Run.change (·.finishFrame tree)
    pure tree

/-- Runs code that knows nothing of what is retained. -/
def onOwner {α : Type} (run : Rendering α) : Compositing α := fun compositor =>
  (run compositor.owner).map fun result => (result.1, { compositor with owner := result.2 })

/-- `layer_frame`. -/
def RenderOwner.layerFrame (viewport : BoxConstraints) : Compositing Layer.Tree := do
  onOwner (layoutRender viewport)
  RenderOwner.compositeFrame

/-! Runs. -/

/-- What is done to a render owner, with its frames. -/
inductive CompositorAction where
  | change (action : RenderAction)
  | frame (viewport : BoxConstraints)

def compositorStep (compositor : Compositor) : CompositorAction → Option Compositor
  | .change action =>
    (renderStep compositor.owner action).map fun owner => { compositor with owner }
  | .frame viewport => (RenderOwner.layerFrame viewport compositor).map Prod.snd

def compositorMachine : Machine Compositor CompositorAction where
  init := (· = Compositor.initially)
  step := compositorStep

/-- No object under the root has more children than its class lays out. -/
def RenderOwner.LaysAll (owner : RenderOwner) : Prop :=
  ∀ id object, Below owner.tree owner.root id → owner.objects id = some object →
    object.laysAll = true

/-- No child under the root that its parent's class leaves out has a fixed-extent list in it. -/
def RenderOwner.LaysLists (owner : RenderOwner) : Prop :=
  ∀ parent above child, Below owner.tree owner.root parent →
    owner.objects parent = some above → child ∈ above.surplus →
    ∀ id object list, Below owner.tree child id → owner.objects id = some object →
      object.kind ≠ .fixedExtentList list

/-- Frames are made of trees whose objects lay out all their children. -/
def FramesLaysAll (compositor : Compositor) : CompositorAction → Prop
  | .frame _ => compositor.owner.LaysAll
  | .change _ => True

/-- Frames are made of trees that leave out no list. -/
def FramesLayLists (compositor : Compositor) : CompositorAction → Prop
  | .frame _ => compositor.owner.LaysLists
  | .change _ => True

end Dui
