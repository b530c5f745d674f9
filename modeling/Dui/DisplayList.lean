import Dui.RenderGeometry

/-! What a frame is made of: display lists, whose clips are closed, and the layers
that move and clip them, with the traversal that turns a layer tree into one list. -/
namespace Dui

inductive DisplayCommand where
  | drawText (text : String) (offset : Offset)
  | drawRect (rect : Rect) (color : UInt32)
  | drawImage (asset : String) (destination : Rect)
  | pushClipRect (rect : Rect)
  | popClip
  deriving DecidableEq, Repr

/-- The loop of the `DisplayList` constructor, at a clip depth. -/
def checkClips : Nat → List DisplayCommand → Except Failure Unit
  | depth, [] =>
    if depth ≠ 0 then .error (.invalidArgument "DisplayList contains an unclosed clip")
    else .ok ()
  | depth, .pushClipRect _ :: rest => checkClips (depth + 1) rest
  | depth, .popClip :: rest =>
    if depth = 0 then .error (.invalidArgument "DisplayList clip stack underflow")
    else checkClips (depth - 1) rest
  | depth, _ :: rest => checkClips depth rest

/-- A list that passed its constructor. -/
structure DisplayList where
  commands : List DisplayCommand := []
  closed : checkClips 0 commands = .ok ()

/-- The constructor. -/
def DisplayList.create (commands : List DisplayCommand) : Except Failure DisplayList :=
  match closed : checkClips 0 commands with
  | .ok () => .ok ⟨commands, closed⟩
  | .error failure => .error failure

structure DisplayListBuilder where
  commands : List DisplayCommand := []
  clipDepth : Nat := 0
  deriving DecidableEq, Repr

namespace DisplayListBuilder

def drawText (builder : DisplayListBuilder) (text : String) (offset : Offset) :
    DisplayListBuilder :=
  { builder with commands := builder.commands ++ [.drawText text offset] }

def drawRect (builder : DisplayListBuilder) (rect : Rect) (color : UInt32) :
    DisplayListBuilder :=
  { builder with commands := builder.commands ++ [.drawRect rect color] }

def drawImage (builder : DisplayListBuilder) (asset : String) (destination : Rect) :
    DisplayListBuilder :=
  { builder with commands := builder.commands ++ [.drawImage asset destination] }

def pushClipRect (builder : DisplayListBuilder) (rect : Rect) :
    Except Failure DisplayListBuilder := do
  checkSize rect.size
  .ok {
    commands := builder.commands ++ [.pushClipRect rect]
    clipDepth := builder.clipDepth + 1 }

def popClip (builder : DisplayListBuilder) : Except Failure DisplayListBuilder :=
  if builder.clipDepth = 0 then .error (.logicError "DisplayList clip stack underflow")
  else .ok {
    commands := builder.commands ++ [.popClip]
    clipDepth := builder.clipDepth - 1 }

def build (builder : DisplayListBuilder) : Except Failure DisplayList :=
  if builder.clipDepth ≠ 0 then .error (.logicError "DisplayList contains an unclosed clip")
  else DisplayList.create builder.commands

/-- One command of a display list layer, moved by the offset of the layer. -/
def append (offset : Offset) (builder : DisplayListBuilder) :
    DisplayCommand → Except Failure DisplayListBuilder
  | .drawText text origin => .ok (builder.drawText text (origin + offset))
  | .drawRect rect color =>
    .ok (builder.drawRect { rect with origin := rect.origin + offset } color)
  | .drawImage asset destination =>
    .ok (builder.drawImage asset { destination with origin := destination.origin + offset })
  | .pushClipRect rect => builder.pushClipRect { rect with origin := rect.origin + offset }
  | .popClip => builder.popClip

end DisplayListBuilder

/-- A layer that passed its constructor. -/
inductive Layer where
  | container (children : List Layer)
  | offset (offset : Offset) (child : Layer)
  | clipRect (clipRect : Rect) (sized : checkSize clipRect.size = .ok ()) (child : Layer)
  | displayList (displayList : DisplayList)

/-- A pointer to a layer, which may be null. -/
abbrev LayerPtr := Option Layer

/-- The constructor of `ContainerLayer`. -/
def containerLayer (children : List LayerPtr) : Except Failure Layer :=
  match children.mapM id with
  | some children => .ok (.container children)
  | none => .error (.invalidArgument "ContainerLayer children cannot be null")

/-- The constructor of `OffsetLayer`; its offset is finite here. -/
def offsetLayer (offset : Offset) : LayerPtr → Except Failure Layer
  | some child => .ok (.offset offset child)
  | none => .error (.invalidArgument "OffsetLayer child cannot be null")

/-- The constructor of `ClipRectLayer`. -/
def clipRectLayer (clipRect : Rect) (child : LayerPtr) : Except Failure Layer :=
  match sized : checkSize clipRect.size, child with
  | .error failure, _ => .error failure
  | .ok (), none => .error (.invalidArgument "ClipRectLayer child cannot be null")
  | .ok (), some child => .ok (.clipRect clipRect sized child)

/-- `append_layer`. -/
def appendLayer : Layer → DisplayListBuilder → Offset → Except Failure DisplayListBuilder
  | .container children, builder, offset => appendAll children builder offset
  | .offset translated child, builder, offset => appendLayer child builder (offset + translated)
  | .clipRect clipRect _ child, builder, offset => do
    let builder ← builder.pushClipRect { clipRect with origin := clipRect.origin + offset }
    let builder ← appendLayer child builder offset
    builder.popClip
  | .displayList display, builder, offset =>
    display.commands.foldlM (DisplayListBuilder.append offset) builder
where
  appendAll : List Layer → DisplayListBuilder → Offset → Except Failure DisplayListBuilder
    | [], builder, _ => .ok builder
    | child :: rest, builder, offset => do
      let builder ← appendLayer child builder offset
      appendAll rest builder offset

/-- `LayerTree`, with the layers that the raster thread only passes on. -/
structure Layer.Tree where
  frameSize : Size := {}
  root : LayerPtr := none
  sized : checkSize frameSize = .ok ()

/-- The constructor of `LayerTree`. -/
def layerTree (frameSize : Size) (root : LayerPtr) : Except Failure Layer.Tree :=
  match sized : checkSize frameSize, root with
  | .error failure, _ => .error failure
  | .ok (), none => .error (.invalidArgument "LayerTree root cannot be null")
  | .ok (), some root => .ok { frameSize, root, sized }

/-- The traversal of `flatten`. -/
def Layer.Tree.appended (tree : Layer.Tree) : Except Failure DisplayListBuilder :=
  match tree.root with
  | some root => appendLayer root {} {}
  | none => .ok {}

/-- `LayerTree::flatten`. -/
def Layer.Tree.flatten (tree : Layer.Tree) : Except Failure DisplayList :=
  tree.appended >>= DisplayListBuilder.build

end Dui
