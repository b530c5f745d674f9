import Dui.PaintMarks

/-! What is retained between frames. The chunks of a boundary that does not need paint are a
recording of it, and the layer of one without any flag shows it, nested boundaries included.
Changes that are announced keep this. -/
namespace Dui
open ForestEdit Nesting

/-! Chunks and layers as pictures. -/

namespace BoundaryChunk

def pieces : BoundaryChunk → List Piece
  | display list => list.commands.map .command
  | child id offset => [.slot id offset]
  | clipBegin rect => [.command (.pushClipRect rect)]
  | clipEnd => [.command .popClip]

def pushes : BoundaryChunk → Bool
  | clipBegin _ => true
  | _ => false

def pops : BoundaryChunk → Bool
  | clipEnd => true
  | _ => false

/-- No clip has a negative size. -/
def sized : BoundaryChunk → Bool
  | display list => list.commands.all DisplayCommand.sized
  | clipBegin rect => (DisplayCommand.pushClipRect rect).sized
  | _ => true

end BoundaryChunk

/-- The commands of a layer that lies at the origin. -/
def Layer.commands (layer : Layer) : List DisplayCommand := Layer.placed (layer.painted [])

/-- No display list of the layer has a clip of negative size. -/
def Layer.sized (layer : Layer) : Bool :=
  layer.displayLists.all fun display => display.commands.all DisplayCommand.sized

/-- The chunks are what recording the boundary comes to. -/
structure ChunksOf (scene : Scene) (id : RenderId) (chunks : List BoundaryChunk) : Prop where
  recording : Recording scene id (chunks.flatMap BoundaryChunk.pieces)
  nested : Balanced BoundaryChunk.pushes BoundaryChunk.pops chunks
  sized : chunks.all BoundaryChunk.sized = true

/-- The layer shows the boundary. -/
structure LayerOf (scene : Scene) (id : RenderId) (layer : Layer) : Prop where
  shown : Shows scene id layer.commands
  sized : layer.sized = true

/-- What a compositor retains is good for these objects where no flag tells otherwise. Objects
to come will need paint. -/
structure Compositor.Holds (compositor : Compositor) (owner : RenderOwner) : Prop where
  fresh : ∀ id, owner.nextId ≤ id → compositor.owner.paint.needsPaint id = true
  kept : ∀ id, owner.isRepaintBoundary id = true →
    compositor.owner.paint.needsPaint id = false → (compositor.retainedLayer id).isSome
  recorded : ∀ id, owner.isRepaintBoundary id = true →
    compositor.owner.paint.needsPaint id = false →
    ChunksOf owner.rangedScene id (compositor.boundaryChunks id)
  composed : ∀ id, owner.isRepaintBoundary id = true →
    compositor.owner.paint.flagged id = false →
    ∃ layer, compositor.retainedLayer id = some layer ∧ LayerOf owner.rangedScene id layer

/-- Between frames, the flags of the root are scheduled, and without any the last frame shows
what is retained of it. -/
structure Compositor.Retains (compositor : Compositor) : Prop
    extends compositor.Holds compositor.owner where
  scheduled : compositor.owner.paint.Scheduled compositor.owner.root
  last : ∀ layer, compositor.lastLayerTree.root = some layer →
    compositor.owner.paint.flagged compositor.owner.root = false →
    compositor.retainedLayer compositor.owner.root = some layer ∧
      compositor.lastLayerTree.frameSize = compositor.owner.rootSize

section Changes
variable {before after : RenderOwner} {id : RenderId} {object : RenderObject}

theorem boundary_of (found : before.objects id = some object) :
    before.isRepaintBoundary id = object.kind.hasRepaintBoundary := by
  unfold RenderOwner.isRepaintBoundary
  rw [found, Option.any_some]

theorem boundary_found (apart : before.isRepaintBoundary id = true) :
    ∃ object, before.objects id = some object ∧ object.kind.hasRepaintBoundary = true :=
  (Option.any_eq_true _ _).mp apart

theorem ranged_scene_of (found : before.objects id = some object) :
    before.rangedScene id = some ⟨object.ranged.look, object.offset⟩ := by
  unfold RenderOwner.rangedScene
  rw [found, Option.map_some]

theorem ranged_scene_found {node : SceneNode} (seen : before.rangedScene id = some node) :
    ∃ object, before.objects id = some object ∧ node = ⟨object.ranged.look, object.offset⟩ := by
  obtain ⟨object, found, same⟩ := Option.map_eq_some_iff.mp seen
  exact ⟨object, found, same.symm⟩

/-- What does not change where flags are missing: the owners, the step from one to the other,
and what is met on the way down from a boundary without the flag. -/
structure Quiet (before after : RenderOwner) (top : RenderId) (reached : RenderId → Prop) :
    Prop where
  sound : RenderTree.Sound before.tree before.nextId
  later : RenderTree.Sound after.tree after.nextId
  covers : before.Covers after
  silent : ∀ id, reached id → ¬before.Announced after.paint id
  top : reached top

namespace Quiet
variable {top : RenderId} {reached : RenderId → Prop} (quiet : Quiet before after top reached)
include quiet

/-- An object that is reached looks the same, and all that it paints is there. -/
theorem same_look (here : reached id) (found : before.objects id = some object) {now : RenderObject}
    (there : after.objects id = some now) : now.ranged.look = object.ranged.look ∧
      ∀ child ∈ object.ranged.look.children,
        ParentOf renderKeys before.tree child id ∧ (after.objects child).isSome := by
  have same := (quiet.covers.look id object now found there).resolve_right (quiet.silent id here)
  refine ⟨same, fun child listed => ⟨?_, ?_⟩⟩
  · exact (quiet.sound.linked (tree_of_object found) child).mp (ranged_children object listed)
  · rw [← same] at listed
    obtain ⟨below, held, _⟩ := parent_of_objects.mpr
      ((quiet.later.linked (tree_of_object there) child).mp (ranged_children now listed))
    rw [held]
    rfl

/-- A child of an object that is reached is where it was. -/
theorem same_place {parent : RenderId} (above : reached parent)
    (named : ParentOf renderKeys before.tree id parent) (found : before.objects id = some object)
    (alive : (after.objects id).isSome) :
    ∃ now, after.objects id = some now ∧ now.offset = object.offset ∧
      now.kind.hasRepaintBoundary = object.kind.hasRepaintBoundary := by
  obtain ⟨now, there⟩ := Option.isSome_iff_exists.mp alive
  exact ⟨now, there, (quiet.covers.offset id parent object now found there named).resolve_right
    (quiet.silent parent above), quiet.covers.boundary id object now found there⟩

end Quiet

section Boundaries
variable (sound : RenderTree.Sound before.tree before.nextId)
  (later : RenderTree.Sound after.tree after.nextId) (covers : before.Covers after)
  (alive : (after.objects id).isSome)
include sound later covers alive

/-- A recording is good as long as its boundary does not need paint. -/
theorem recording_kept {pieces : List Piece} (apart : before.isRepaintBoundary id = true)
    (clean : after.paint.needsPaint id = false)
    (recording : Recording before.rangedScene id pieces) :
    Recording after.rangedScene id pieces := by
  have quiet : Quiet before after id (before.Hosted id) := by
    refine ⟨sound, later, covers, fun other hosted announced => ?_, .self⟩
    rw [announced.recorded id apart hosted] at clean
    cases clean
  obtain ⟨node, below, seen, records, rfl⟩ := recording
  obtain ⟨object, found, rfl⟩ := ranged_scene_found seen
  obtain ⟨now, there⟩ := Option.isSome_iff_exists.mp alive
  obtain ⟨look, children⟩ := quiet.same_look quiet.top found there
  refine ⟨⟨now.ranged.look, now.offset⟩, below, ranged_scene_of there, ?_, by rw [look]⟩
  rw [show now.ranged.look = object.ranged.look from look]
  -- what is met are the children of the objects recorded
  refine records.congr (fun child => ∃ parent, ParentOf renderKeys before.tree child parent ∧
    before.Hosted id parent ∧ (after.objects child).isSome) (fun child listed =>
      ⟨id, (children child listed).1, .self, (children child listed).2⟩) ?_
  rintro child node ⟨parent, named, hosted, alive⟩ seen
  obtain ⟨object, found, rfl⟩ := ranged_scene_found seen
  obtain ⟨now, there, offset, boundary⟩ := quiet.same_place hosted named found alive
  refine ⟨_, ranged_scene_of there, offset, ?_, fun within => ?_⟩
  · rw [ranged_boundary, ranged_boundary, boundary]
  · rw [ranged_boundary, ← boundary_of found] at within
    have hosted : before.Hosted id child := .inner named within hosted
    obtain ⟨look, children⟩ := quiet.same_look hosted found there
    exact ⟨look, fun other listed =>
      ⟨child, (children other listed).1, hosted, (children other listed).2⟩⟩

/-- A picture is good as long as its boundary has no flag. -/
theorem picture_kept {commands : List DisplayCommand} (apart : before.isRepaintBoundary id = true)
    (clean : after.paint.flagged id = false) (shown : Shows before.rangedScene id commands) :
    Shows after.rangedScene id commands := by
  have quiet : Quiet before after id (Below before.tree id) := by
    refine ⟨sound, later, covers, fun other below announced => ?_, below_self id⟩
    rw [announced.flagged id apart below] at clean
    cases clean
  obtain ⟨node, below, seen, paints, rfl⟩ := shown
  obtain ⟨object, found, rfl⟩ := ranged_scene_found seen
  obtain ⟨now, there⟩ := Option.isSome_iff_exists.mp alive
  obtain ⟨look, children⟩ := quiet.same_look quiet.top found there
  refine ⟨⟨now.ranged.look, now.offset⟩, below, ranged_scene_of there, ?_, by rw [look]⟩
  rw [show now.ranged.look = object.ranged.look from look]
  refine paints.congr (fun child => ∃ parent, ParentOf renderKeys before.tree child parent ∧
    Below before.tree id parent ∧ (after.objects child).isSome) (fun child listed =>
      ⟨id, (children child listed).1, below_self id, (children child listed).2⟩) ?_
  rintro child node ⟨parent, named, above, alive⟩ seen
  obtain ⟨object, found, rfl⟩ := ranged_scene_found seen
  obtain ⟨now, there, offset, _⟩ := quiet.same_place above named found alive
  have below : Below before.tree id child := .head named above
  obtain ⟨look, children⟩ := quiet.same_look below found there
  refine ⟨?_, fun other listed =>
    ⟨child, (children other listed).1, below, (children other listed).2⟩⟩
  rw [ranged_scene_of there, look, offset]

end Boundaries

/-- Announced changes keep what is retained good. -/
theorem retains_of_covers {compositor : Compositor} (retains : compositor.Retains)
    (sound : RenderTree.Sound compositor.owner.tree compositor.owner.nextId)
    (later : RenderTree.Sound after.tree after.nextId) (covers : compositor.owner.Covers after)
    (next : compositor.owner.nextId ≤ after.nextId) (root : after.root = compositor.owner.root)
    (top : compositor.owner.isRepaintBoundary compositor.owner.root = true)
    (rooted : (after.objects after.root).isSome)
    (born : ∀ id, (after.objects id).isSome → (compositor.owner.objects id).isSome ∨
      compositor.owner.nextId ≤ id) :
    Compositor.Retains { compositor with owner := after } := by
  have silent : ∀ id, after.paint.needsPaint id = false →
      compositor.owner.paint.needsPaint id = false := fun id clean =>
    Bool.eq_false_iff.mpr fun flag => by
      rw [covers.grows.paint id flag] at clean
      cases clean
  have quiet : ∀ id, after.paint.flagged id = false →
      compositor.owner.paint.flagged id = false := fun id clean =>
    Bool.eq_false_iff.mpr fun flag => by
      rw [covers.grows.flagged id flag] at clean
      cases clean
  have unpainted : ∀ id, after.paint.flagged id = false → after.paint.needsPaint id = false :=
    fun id clean => (Bool.or_eq_false_iff.mp clean).1
  -- a boundary that does not need paint has been one before
  have former : ∀ id, after.isRepaintBoundary id = true → after.paint.needsPaint id = false →
      compositor.owner.isRepaintBoundary id = true ∧ (after.objects id).isSome := by
    intro id apart clean
    obtain ⟨now, there, kind⟩ := boundary_found apart
    have alive : (after.objects id).isSome := by
      rw [there]
      rfl
    rcases born id alive with present | issued
    · obtain ⟨object, found⟩ := Option.isSome_iff_exists.mp present
      rw [boundary_of found, ← covers.boundary id object now found there]
      exact ⟨kind, alive⟩
    · rw [covers.grows.paint id (retains.fresh id issued)] at clean
      cases clean
  refine ⟨⟨fun id issued => covers.grows.paint id (retains.fresh id (next.trans issued)),
    fun id apart clean => ?_, fun id apart clean => ?_, fun id apart clean => ?_⟩, ?_,
    fun layer shown clean => ?_⟩
  · exact retains.kept id (former id apart clean).1 (silent id clean)
  · obtain ⟨before, alive⟩ := former id apart clean
    obtain ⟨recording, nested, sized⟩ := retains.recorded id before (silent id clean)
    exact ⟨recording_kept sound later covers alive before clean recording, nested, sized⟩
  · obtain ⟨before, alive⟩ := former id apart (unpainted id clean)
    obtain ⟨layer, held, shown, sized⟩ := retains.composed id before (quiet id clean)
    exact ⟨layer, held, picture_kept sound later covers alive before clean shown, sized⟩
  · change after.paint.Scheduled after.root
    rw [root]
    exact covers.scheduled retains.scheduled
  · change after.paint.flagged after.root = false at clean
    change compositor.retainedLayer after.root = some layer ∧ _ = after.rootSize
    rw [root] at clean ⊢
    obtain ⟨held, size⟩ := retains.last layer shown (quiet _ clean)
    refine ⟨held, size.trans ?_⟩
    obtain ⟨object, found, _⟩ := boundary_found top
    obtain ⟨now, there⟩ := Option.isSome_iff_exists.mp rooted
    rw [root] at there
    have same := (covers.look _ object now found there).resolve_right fun announced => by
      have flag := announced.recorded _ top .self
      rw [unpainted _ clean] at flag
      cases flag
    have sizes := congrArg Look.size same
    rw [ranged_size, ranged_size] at sizes
    unfold RenderOwner.rootSize
    rw [root, found, there]
    exact sizes.symm

end Changes

end Dui
