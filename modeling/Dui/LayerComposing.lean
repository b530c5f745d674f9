import Dui.RetainedLayers

/-! Composing a boundary of its chunks. The frames of the loop stand for the commands gone
through so far, so the layer shows what was recorded, with each slot filled by the picture of
the boundary that is ensured there. -/
namespace Dui
open Effect ForestEdit Nesting

/-! The commands of layers. -/

namespace Layer

mutual

/-- The commands under a layer are moved by the offsets above. -/
theorem placed_painted : ∀ (layer : Layer) (ancestors : List Offset),
    placed (layer.painted ancestors) =
      layer.commands.map (DisplayCommand.translate (totalOffset ancestors))
  | container children, ancestors => by
    have inner := placed_painted_all children ancestors
    have outer := placed_painted_all children []
    rw [show totalOffset [] = {} from rfl, map_translate_zero] at outer
    change placed (paintedAll children ancestors) = (placed (paintedAll children [])).map _
    rw [inner, outer]
  | offset moved child, ancestors => by
    have inner := placed_painted child (ancestors ++ [moved])
    have outer := placed_painted child [moved]
    change placed (child.painted (ancestors ++ [moved])) = (placed (child.painted [moved])).map _
    rw [inner, outer, List.map_map, total_offset_append]
    refine List.map_congr_left fun command _ => ?_
    rw [Function.comp_apply, translate_translate]
    congr 1
    change (⟨_, _⟩ : Offset) = ⟨_, _⟩
    simp [totalOffset, add_comm]
  | clipRect rect sized child, ancestors => by
    have inner := placed_painted child ancestors
    simp only [commands, painted, placed, List.map_append, List.map_cons, List.map_nil] at inner ⊢
    rw [inner]
    simp [DisplayCommand.translate, totalOffset, add_zero_offset]
  | displayList display, ancestors => by
    simp only [commands, painted, placed, List.map_map]
    refine List.map_congr_left fun command _ => ?_
    exact (congrArg _ (translate_zero command)).symm

theorem placed_painted_all : ∀ (layers : List Layer) (ancestors : List Offset),
    placed (paintedAll layers ancestors) =
      (layers.flatMap commands).map (DisplayCommand.translate (totalOffset ancestors))
  | [], _ => rfl
  | child :: rest, ancestors => by
    rw [paintedAll, placed_append, placed_painted child, placed_painted_all rest,
      List.flatMap_cons, List.map_append]

end

section Commands
variable {children : List Layer} {child : Layer}

theorem container_commands : (container children).commands = children.flatMap commands := by
  have all := placed_painted_all children []
  rwa [show totalOffset [] = {} from rfl, map_translate_zero] at all

theorem offset_commands (moved : Offset) :
    (offset moved child).commands = child.commands.map (DisplayCommand.translate moved) := by
  have inner := placed_painted child [moved]
  have total : totalOffset [moved] = moved := by
    change (⟨_, _⟩ : Offset) = moved
    simp
  rwa [total] at inner

theorem clip_commands {rect : Rect} {sized : checkSize rect.size = .ok ()} :
    (clipRect rect sized child).commands =
      .pushClipRect rect :: child.commands ++ [.popClip] := by
  have moved := translate_zero (.pushClipRect rect)
  simp only [commands, painted, placed, List.map_append, List.map_cons, List.map_nil]
  rw [show totalOffset [] = {} from rfl, moved]
  rfl

theorem display_commands (display : DisplayList) :
    (displayList display).commands = display.commands := by
  simp only [commands, painted, placed, List.map_map]
  exact map_translate_zero display.commands

theorem container_sized : (container children).sized = children.all sized := by
  unfold sized
  rw [displayLists]
  induction children with
  | nil => rfl
  | cons child rest ih => rw [displayListsAll, List.all_append, List.all_cons, ih]

end Commands

end Layer

/-! The frames of the loop. -/

/-- The commands of a layer that may be null. -/
def LayerPtr.commands (layer : LayerPtr) : List DisplayCommand := layer.elim [] Layer.commands

def LayerPtr.sized (layer : LayerPtr) : Bool := layer.any Layer.sized

/-- What a frame begins with, and the layers in it. -/
def LayerFrame.commands (frame : LayerFrame) : List DisplayCommand :=
  (frame.clip.map DisplayCommand.pushClipRect).toList ++ frame.layers.flatMap LayerPtr.commands

/-- Only the first frame has no clip, no clip has a negative size, and no layer is missing. -/
def Stacked : LayerFrame → List LayerFrame → Prop
  | frame, [] => frame.clip = none ∧ frame.layers.all LayerPtr.sized = true
  | frame, outer :: before =>
    (∃ rect, frame.clip = some rect ∧ (DisplayCommand.pushClipRect rect).sized = true) ∧
      frame.layers.all LayerPtr.sized = true ∧ Stacked outer before

namespace LayerFrames

/-- The commands gone through so far. -/
def commands (frames : LayerFrames) : List DisplayCommand :=
  frames.before.reverse.flatMap LayerFrame.commands ++ frames.back.commands

end LayerFrames

section Frames
variable {frames : LayerFrames} {frame : LayerFrame} {before : List LayerFrame} {layer : Layer}
  {layers : List LayerPtr}

theorem container_layer (filled : layers.all LayerPtr.sized = true) :
    ∃ layer, containerLayer layers = .ok layer ∧
      layer.commands = layers.flatMap LayerPtr.commands ∧ layer.sized = true := by
  obtain ⟨children, rfl, sized⟩ : ∃ children : List Layer, layers = children.map some ∧
      children.all Layer.sized = true := by
    induction layers with
    | nil => exact ⟨[], rfl, rfl⟩
    | cons first rest ih =>
      rw [List.all_cons, Bool.and_eq_true] at filled
      obtain ⟨children, rfl, sized⟩ := ih filled.2
      obtain ⟨child, rfl, here⟩ := (Option.any_eq_true _ _).mp filled.1
      refine ⟨child :: children, rfl, ?_⟩
      rw [List.all_cons, here, sized]
      rfl
  have all : (children.map some).mapM id = some children := by
    clear sized filled
    induction children with
    | nil => rfl
    | cons child rest ih =>
      rw [List.map_cons, List.mapM_cons, ih]
      rfl
  refine ⟨.container children, ?_, ?_, ?_⟩
  · rw [containerLayer, all]
  · rw [Layer.container_commands, List.flatMap_map]
    rfl
  · rw [Layer.container_sized, sized]

theorem push_layer_commands :
    (frames.pushLayer layer).commands = frames.commands ++ layer.commands := by
  simp [LayerFrames.commands, LayerFrames.pushLayer, LayerFrame.commands, LayerPtr.commands]

theorem push_layer_stacked (stacked : Stacked frames.back frames.before)
    (sized : layer.sized = true) :
    Stacked (frames.pushLayer layer).back (frames.pushLayer layer).before := by
  have filled : ∀ layers : List LayerPtr, layers.all LayerPtr.sized = true →
      (layers ++ [some layer]).all LayerPtr.sized = true := by
    intro layers filled
    rw [List.all_append, filled]
    exact (Bool.and_true _).trans sized
  obtain ⟨back, before⟩ := frames
  cases before with
  | nil => exact ⟨stacked.1, filled _ stacked.2⟩
  | cons outer before => exact ⟨stacked.1, filled _ stacked.2.1, stacked.2.2⟩

/-- The end of a clip, where one is open. -/
theorem end_clip {outer : LayerFrame} (stacked : Stacked frame (outer :: before)) :
    ∃ after : LayerFrames, LayerFrames.endClip ⟨frame, outer :: before⟩ = .ok after ∧
      after.before = before ∧ Stacked after.back after.before ∧
      after.commands = LayerFrames.commands ⟨frame, outer :: before⟩ ++ [.popClip] := by
  obtain ⟨⟨rect, clip, sized⟩, filled, rest⟩ := stacked
  obtain ⟨contents, contained, same, all⟩ := container_layer filled
  have checked : checkSize rect.size = .ok () := by
    simp only [DisplayCommand.sized, Bool.and_eq_true, decide_eq_true_eq] at sized
    rw [check_size_eq, if_pos sized]
  have clipped : clipRectLayer rect (some contents) = .ok (.clipRect rect checked contents) := by
    unfold clipRectLayer
    split
    · rename_i refused
      cases checked.symm.trans refused
    · rename_i none
      cases none
    · rename_i child
      cases child
      rfl
  have ended : LayerFrames.endClip ⟨frame, outer :: before⟩ =
      .ok (LayerFrames.pushLayer ⟨outer, before⟩ (.clipRect rect checked contents)) := by
    unfold LayerFrames.endClip
    dsimp only
    rw [clip]
    dsimp only
    rw [contained]
    change (do
      let clipped ← clipRectLayer rect (some contents)
      .ok (LayerFrames.pushLayer ⟨outer, before⟩ clipped)) = _
    rw [clipped]
    rfl
  refine ⟨_, ended, rfl, push_layer_stacked rest all, ?_⟩
  rw [push_layer_commands, Layer.clip_commands, same]
  simp [LayerFrames.commands, LayerFrame.commands, clip]

end Frames

/-! What composing does to a compositor. -/

section Composing
variable {owner : RenderOwner} {before after last : Compositor} {id top boundary other : RenderId}
  {region wider : RenderId → Prop}

/-- The object is below the other, and is another. -/
abbrev StrictlyBelow (tree : RenderId → Option RenderObject) (top id : RenderId) : Prop :=
  Relation.TransGen (ParentOf renderKeys tree) id top

/-- The compositor is at work on these objects. -/
structure Compositor.Composes (compositor : Compositor) (owner : RenderOwner) : Prop where
  same : compositor.owner = { owner with paint := compositor.owner.paint }
  holds : compositor.Holds owner

/-- The object is recorded with a boundary that does not need paint any more. -/
def Compositor.Repaints (before after : Compositor) (owner : RenderOwner) (id : RenderId) : Prop :=
  ∃ boundary, owner.isRepaintBoundary boundary = true ∧ owner.Hosted boundary id ∧
    before.owner.paint.needsPaint boundary = true ∧ after.owner.paint.needsPaint boundary = false

/-- No flag is raised, what has no flag is left alone, as are boundaries outside of the region,
and objects are painted once, with a boundary that needs it. -/
structure Compositor.Advances (before after : Compositor) (owner : RenderOwner)
    (region : RenderId → Prop) : Prop where
  paint : ∀ id, after.owner.paint.needsPaint id = true → before.owner.paint.needsPaint id = true
  flagged : ∀ id, after.owner.paint.flagged id = true → before.owner.paint.flagged id = true
  chunks : ∀ id, before.owner.paint.needsPaint id = false →
    after.boundaryChunks id = before.boundaryChunks id
  layers : ∀ id, before.owner.paint.flagged id = false →
    after.retainedLayer id = before.retainedLayer id
  elsewhere : ∀ id, ¬region id →
    after.owner.paint.needsPaint id = before.owner.paint.needsPaint id ∧
      after.boundaryChunks id = before.boundaryChunks id
  counts : ∀ id, after.paintCount id = before.paintCount id ∨
    after.paintCount id = before.paintCount id + 1 ∧ before.Repaints after owner id
  last : after.lastLayerTree = before.lastLayerTree

/-- An object is recorded with one boundary only. -/
theorem hosted_unique (hosted : owner.Hosted boundary id)
    (apart : owner.isRepaintBoundary boundary = true) (also : owner.Hosted other id)
    (boundary_ : owner.isRepaintBoundary other = true) : other = boundary := by
  induction hosted with
  | self =>
    cases also with
    | self => rfl
    | inner _ within _ =>
      rw [apart] at within
      cases within
  | inner named within _ ih =>
    cases also with
    | self =>
      rw [boundary_] at within
      cases within
    | inner up _ hosted =>
      rw [named.unique up] at ih
      exact ih hosted

namespace Compositor.Advances

theorem refl (compositor : Compositor) : compositor.Advances compositor owner region :=
  ⟨fun _ flag => flag, fun _ flag => flag, fun _ _ => rfl, fun _ _ => rfl, fun _ _ => ⟨rfl, rfl⟩,
    fun _ => .inl rfl, rfl⟩

theorem clean (advances : before.Advances after owner region)
    (clean : before.owner.paint.needsPaint id = false) :
    after.owner.paint.needsPaint id = false :=
  Bool.eq_false_iff.mpr fun flag => by
    rw [advances.paint id flag] at clean
    cases clean

theorem quiet (advances : before.Advances after owner region)
    (quiet : before.owner.paint.flagged id = false) : after.owner.paint.flagged id = false :=
  Bool.eq_false_iff.mpr fun flag => by
    rw [advances.flagged id flag] at quiet
    cases quiet

theorem trans (first : before.Advances after owner region)
    (second : after.Advances last owner region) : before.Advances last owner region := by
  refine ⟨fun id flag => first.paint id (second.paint id flag),
    fun id flag => first.flagged id (second.flagged id flag),
    fun id clean => (second.chunks id (first.clean clean)).trans (first.chunks id clean),
    fun id quiet => (second.layers id (first.quiet quiet)).trans (first.layers id quiet),
    fun id outside => ?_, fun id => ?_, second.last.trans first.last⟩
  · obtain ⟨needs, chunks⟩ := first.elsewhere id outside
    obtain ⟨still, kept⟩ := second.elsewhere id outside
    exact ⟨still.trans needs, kept.trans chunks⟩
  · rcases first.counts id with same | ⟨more, boundary, apart, hosted, needed, clean⟩
    · rcases second.counts id with still | ⟨more, boundary, apart, hosted, needed, clean⟩
      · exact .inl (still.trans same)
      · exact .inr ⟨more.trans (congrArg (· + 1) same), boundary, apart, hosted,
          first.paint boundary needed, clean⟩
    · have silent := second.clean clean
      rcases second.counts id with still | ⟨_, other, boundary_, also, needs, _⟩
      · exact .inr ⟨still.trans more, boundary, apart, hosted, needed, silent⟩
      · -- its boundary would need paint again
        rw [hosted_unique hosted apart also boundary_, clean] at needs
        cases needs

theorem widen (advances : before.Advances after owner region)
    (within : ∀ id, region id → wider id) : before.Advances after owner wider :=
  { advances with
    elsewhere := fun id outside => advances.elsewhere id fun inside => outside (within id inside) }

end Compositor.Advances

/-- The boundaries further down are brought up to date this way. -/
def Ensures (owner : RenderOwner) (top : RenderId) (ensure : RenderId → Compositing Unit) : Prop :=
  ∀ compositor id, compositor.Composes owner → owner.Painted id →
    owner.isRepaintBoundary id = true → StrictlyBelow owner.tree top id →
    Completes (ensure id) compositor fun _ next => next.Composes owner ∧
      compositor.Advances next owner (Below owner.tree id) ∧ next.owner.paint.flagged id = false

/-- The slot is that of a painted boundary further down. -/
def FitSlot (owner : RenderOwner) (top id : RenderId) : Prop :=
  owner.Painted id ∧ owner.isRepaintBoundary id = true ∧ StrictlyBelow owner.tree top id

end Composing

section Chunks
variable {owner : RenderOwner} {top : RenderId} {ensure : RenderId → Compositing Unit}
  {chunk : BoundaryChunk} {frames : LayerFrames} {compositor : Compositor}

/-- The same boundaries are at work. -/
theorem Compositor.Composes.boundary (composes : compositor.Composes owner) (id : RenderId) :
    compositor.owner.isRepaintBoundary id = owner.isRepaintBoundary id := by
  rw [composes.same]
  rfl

/-- What a chunk adds to the frames: its commands, with the picture of a boundary in its slot. -/
theorem compose_chunk (ensures : Ensures owner top ensure) (composes : compositor.Composes owner)
    (stacked : Stacked frames.back frames.before) (sized : chunk.sized = true)
    (closes : chunk.pops.toNat ≤ frames.before.length + chunk.pushes.toNat)
    (fit : ∀ key offset, .slot key offset ∈ chunk.pieces → FitSlot owner top key) :
    Completes (composeChunk ensure frames chunk) compositor fun after next =>
      next.Composes owner ∧ compositor.Advances next owner (StrictlyBelow owner.tree top) ∧
        Stacked after.back after.before ∧
        after.before.length = frames.before.length + chunk.pushes.toNat - chunk.pops.toNat ∧
        after.commands = frames.commands ++
          chunk.pieces.flatMap (Piece.fill owner.rangedScene.picture) ∧
        ∀ key offset, .slot key offset ∈ chunk.pieces →
          Shows owner.rangedScene key (owner.rangedScene.picture key) := by
  have slotless : (∀ key offset, Piece.slot key offset ∉ chunk.pieces) →
      ∀ key offset, .slot key offset ∈ chunk.pieces →
        Shows owner.rangedScene key (owner.rangedScene.picture key) :=
    fun none key offset listed => absurd listed (none key offset)
  cases chunk with
  | display display =>
    refine Completes.pure ⟨composes, .refl _, push_layer_stacked stacked ?_, rfl, ?_,
      slotless fun key offset listed => ?_⟩
    · exact (Bool.and_true _).trans sized
    · rw [push_layer_commands, Layer.display_commands]
      exact congrArg _ (fill_commands _ _).symm
    · obtain ⟨_, _, same⟩ := List.mem_map.mp listed
      cases same
  | clipBegin rect =>
    refine Completes.pure ⟨composes, .refl _, ⟨⟨rect, rfl, sized⟩, rfl, stacked⟩, rfl, ?_,
      slotless fun key offset listed => ?_⟩
    · simp [LayerFrames.commands, LayerFrame.commands, BoundaryChunk.pieces, Piece.fill]
    · cases List.mem_singleton.mp listed
  | clipEnd =>
    obtain ⟨back, open_⟩ := frames
    cases open_ with
    | nil => cases closes
    | cons outer rest =>
      obtain ⟨after, ended, same, stacked, commands⟩ := end_clip stacked
      refine Completes.resume ended ⟨composes, .refl _, stacked, ?_, commands,
        slotless fun key offset listed => ?_⟩
      · rw [same]
        rfl
      · cases List.mem_singleton.mp listed
  | child id offset =>
    obtain ⟨painted, apart, below⟩ := fit id offset List.mem_cons_self
    have here : compositor.owner.isRepaintBoundary id = true :=
      (composes.boundary id).trans apart
    refine Completes.reading ?_
    rw [if_pos here]
    refine Completes.bind ((ensures compositor id composes painted apart below).mono ?_)
    rintro _ next ⟨composed, advances, quiet⟩
    obtain ⟨layer, held, shown, whole⟩ := composed.holds.composed id apart quiet
    have moved : offsetLayer offset (next.retainedLayer id) = .ok (.offset offset layer) := by
      rw [held]
      rfl
    refine Completes.reading (Completes.resuming moved (Completes.pure ⟨composed,
      advances.widen fun other under => ?_, push_layer_stacked stacked whole, rfl, ?_, ?_⟩))
    · exact Relation.TransGen.trans_right under below
    · rw [push_layer_commands, Layer.offset_commands, ← shown.picture]
      exact congrArg _ (List.append_nil _).symm
    · intro key place listed
      cases List.mem_singleton.mp listed
      rwa [shown.picture]

/-- The loop over the chunks closes all clips, and comes to what was recorded, with all slots
filled. -/
theorem compose_chunks (ensures : Ensures owner top ensure) : ∀ (chunks : List BoundaryChunk)
    (frames : LayerFrames) (compositor : Compositor), compositor.Composes owner →
    Stacked frames.back frames.before →
    ClosesFrom BoundaryChunk.pushes BoundaryChunk.pops frames.before.length chunks →
    chunks.all BoundaryChunk.sized = true →
    (∀ key offset, .slot key offset ∈ chunks.flatMap BoundaryChunk.pieces →
      FitSlot owner top key) →
    Completes (composeChunks ensure frames chunks) compositor fun after next =>
      next.Composes owner ∧ compositor.Advances next owner (StrictlyBelow owner.tree top) ∧
        Stacked after.back after.before ∧ after.before = [] ∧
        after.commands = frames.commands ++
          (chunks.flatMap BoundaryChunk.pieces).flatMap
            (Piece.fill owner.rangedScene.picture) ∧
        ∀ key offset, .slot key offset ∈ chunks.flatMap BoundaryChunk.pieces →
          Shows owner.rangedScene key (owner.rangedScene.picture key) := by
  intro chunks
  induction chunks with
  | nil =>
    intro frames compositor composes stacked closed _ _
    have done := List.length_eq_zero_iff.mp (closes_from_nil.mp closed)
    exact Completes.pure ⟨composes, .refl _, stacked, done, (List.append_nil _).symm,
      fun _ _ listed => absurd listed List.not_mem_nil⟩
  | cons chunk rest ih =>
    intro frames compositor composes stacked closed sized fit
    obtain ⟨closes, closed⟩ := closes_from_cons.mp closed
    rw [List.all_cons, Bool.and_eq_true] at sized
    rw [List.flatMap_cons] at fit
    refine Completes.bind ((compose_chunk ensures composes stacked sized.1 closes
      fun key offset listed => fit key offset (List.mem_append_left _ listed)).mono ?_)
    rintro after middle ⟨composes, advances, stacked, depth, commands, shown⟩
    rw [← depth] at closed
    refine (ih after middle composes stacked closed sized.2 fun key offset listed =>
      fit key offset (List.mem_append_right _ listed)).mono ?_
    rintro last next ⟨composes, further, stacked, done, more, others⟩
    refine ⟨composes, advances.trans further, stacked, done, ?_, fun key offset listed => ?_⟩
    · rw [more, commands, List.flatMap_cons, List.flatMap_append, List.append_assoc]
    · rw [List.flatMap_cons] at listed
      exact (List.mem_append.mp listed).elim (shown key offset) (others key offset)

end Chunks

/-! The slots of a recording. -/

/-- What painting relies on of an object: its ranges are those that its constraints give and
are among its children, and it has no negative size. -/
structure RenderObject.Paintable (object : RenderObject) : Prop where
  ranged : object.ranged = object
  first : object.paintChildRange.1 ≤ object.paintChildRange.2
  last : object.paintChildRange.2 ≤ object.children.length
  sized : 0 ≤ object.measure.size.width ∧ 0 ≤ object.measure.size.height

/-- All that is painted can be. -/
def RenderOwner.Paintable (owner : RenderOwner) : Prop :=
  ∀ id, owner.Painted id → ∃ object, owner.objects id = some object ∧ object.Paintable

section Slots
variable {owner : RenderOwner} {top id key : RenderId} {object : RenderObject} {look : Look}
  {offset place : Offset} {pieces : List Piece} {keys : List RenderId}
  {ensure : RenderId → Compositing Unit} {compositor : Compositor}

theorem slot_enclosed :
    .slot key place ∈ look.enclose Piece.command offset pieces ↔ .slot key place ∈ pieces := by
  unfold Look.enclose
  dsimp only
  split <;> simp

/-- What an object paints that can be painted. -/
theorem painted_child (sound : RenderTree.Sound owner.tree owner.nextId)
    (paintable : object.Paintable) (painted : owner.Painted id)
    (found : owner.objects id = some object) {child : RenderId}
    (listed : child ∈ object.ranged.look.children) :
    owner.Painted child ∧ ParentOf renderKeys owner.tree child id := by
  have among := ranged_children object listed
  rw [paintable.ranged] at listed
  exact ⟨.child painted found listed, (sound.linked (tree_of_object found) child).mp among⟩

/-- The slots of what is recorded are painted boundaries further down. -/
theorem records_slots (sound : RenderTree.Sound owner.tree owner.nextId)
    (paintable : owner.Paintable) (records : Records owner.rangedScene keys offset pieces) :
    (∀ key ∈ keys, owner.Painted key ∧ StrictlyBelow owner.tree top key) →
      ∀ key place, .slot key place ∈ pieces → FitSlot owner top key := by
  induction records with
  | none => exact fun _ key place listed => absurd listed List.not_mem_nil
  | boundary found apart _ later =>
    intro below key place listed
    rcases List.mem_cons.mp listed with same | listed
    · cases same
      obtain ⟨painted, under⟩ := below _ List.mem_cons_self
      obtain ⟨object, held, rfl⟩ := ranged_scene_found found
      rw [ranged_boundary] at apart
      exact ⟨painted, (boundary_of held).trans apart, under⟩
    · exact later (fun key among => below key (List.mem_cons_of_mem _ among)) key place listed
  | inner found within _ _ inside later =>
    intro below key place listed
    rcases List.mem_append.mp listed with listed | listed
    · obtain ⟨painted, under⟩ := below _ List.mem_cons_self
      obtain ⟨object, held, rfl⟩ := ranged_scene_found found
      obtain ⟨_, again, able⟩ := paintable _ painted
      cases held.symm.trans again
      refine inside (fun child among => ?_) key place (slot_enclosed.mp listed)
      obtain ⟨painted, named⟩ := painted_child sound able painted held among
      exact ⟨painted, .head named under⟩
    · exact later (fun key among => below key (List.mem_cons_of_mem _ among)) key place listed

theorem recording_slots (sound : RenderTree.Sound owner.tree owner.nextId)
    (paintable : owner.Paintable) (painted : owner.Painted top)
    (recording : Recording owner.rangedScene top pieces) :
    ∀ key place, .slot key place ∈ pieces → FitSlot owner top key := by
  obtain ⟨node, below, seen, records, rfl⟩ := recording
  obtain ⟨object, found, rfl⟩ := ranged_scene_found seen
  obtain ⟨_, again, able⟩ := paintable top painted
  cases found.symm.trans again
  intro key place listed
  refine records_slots sound paintable records (fun child among => ?_) key place
    (slot_enclosed.mp listed)
  obtain ⟨painted, named⟩ := painted_child sound able painted found among
  exact ⟨painted, .single named⟩

/-- Composing a flagged boundary gives it a layer that shows it, if its chunks are good. -/
theorem compose_boundary (ensures : Ensures owner id ensure)
    (sound : RenderTree.Sound owner.tree owner.nextId) (paintable : owner.Paintable)
    (composes : compositor.Composes owner) (painted : owner.Painted id)
    (chunks : ChunksOf owner.rangedScene id (compositor.boundaryChunks id))
    (flag : compositor.owner.paint.flagged id = true) :
    Completes (composeBoundary ensure id) compositor fun _ next => next.Composes owner ∧
      compositor.Advances next owner (StrictlyBelow owner.tree id) ∧
      next.owner.paint.needsCompositing id = false ∧
      ∃ layer, next.retainedLayer id = some layer ∧ LayerOf owner.rangedScene id layer := by
  refine Completes.reading (Completes.bind ((compose_chunks ensures _ {} compositor composes
    ⟨rfl, rfl⟩ chunks.nested chunks.sized
    (recording_slots sound paintable painted chunks.recording)).mono ?_))
  rintro after next ⟨composed, advances, stacked, done, commands, shown⟩
  rw [if_pos done]
  obtain ⟨back, before⟩ := after
  obtain rfl : before = [] := done
  obtain ⟨(unclipped : back.clip = none), filled⟩ := stacked
  obtain ⟨layer, contained, same, sized⟩ := container_layer filled
  refine Completes.resuming contained (Completes.change ?_)
  have whole : LayerOf owner.rangedScene id layer := by
    refine ⟨?_, sized⟩
    have drawn : layer.commands = LayerFrames.commands ⟨back, []⟩ := by
      rw [same]
      simp [LayerFrames.commands, LayerFrame.commands, unclipped]
    rw [drawn, commands]
    exact chunks.recording.fill shown
  refine ⟨⟨?_, composed.holds.fresh, fun other apart clean => ?_, composed.holds.recorded,
    fun other apart quiet => ?_⟩, ⟨advances.paint, fun other flagged => ?_, advances.chunks,
    fun other quiet => ?_, advances.elsewhere, advances.counts, advances.last⟩,
    Function.update_self .., layer, Function.update_self .., whole⟩
  · exact congrArg (fun owner : RenderOwner =>
      { owner with paint := (next.retain id layer).owner.paint }) composed.same
  · by_cases same : other = id
    · subst same
      change (Function.update next.retainedLayer other (some layer) other).isSome = true
      rw [Function.update_self]
      rfl
    · change (Function.update next.retainedLayer id (some layer) other).isSome = true
      rw [Function.update_of_ne same]
      exact composed.holds.kept other apart clean
  · by_cases same : other = id
    · subst same
      exact ⟨layer, Function.update_self .., whole⟩
    · have before : next.owner.paint.flagged other = false := by
        refine Eq.trans ?_ quiet
        unfold PaintState.flagged
        exact congrArg _ (Function.update_of_ne same _ _).symm
      obtain ⟨layer, held, whole⟩ := composed.holds.composed other apart before
      exact ⟨layer, (Function.update_of_ne same _ _).trans held, whole⟩
  · by_cases same : other = id
    · rwa [same]
    · refine advances.flagged other (Eq.trans ?_ flagged)
      unfold PaintState.flagged
      exact congrArg _ (Function.update_of_ne same _ _).symm
  · have different : other ≠ id := by
      rintro rfl
      rw [flag] at quiet
      cases quiet
    exact (Function.update_of_ne different _ _).trans (advances.layers other quiet)

end Slots

end Dui
