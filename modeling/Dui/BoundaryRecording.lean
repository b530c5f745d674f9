import Dui.LayerComposing
import Dui.LayoutAgreement

/-! Recording a boundary. The chunks that the recorder collects are what the boundary paints,
down to the boundaries below it, and ensuring a boundary leaves it without a flag, with a layer
that shows it. -/
namespace Dui
open Effect ForestEdit Nesting

/-! The recorder. -/

namespace DisplayCommand

/-- The command neither opens nor closes a clip. -/
def draws (command : DisplayCommand) : Bool := !command.pushes && !command.pops

end DisplayCommand

section Drawing
variable {commands : List DisplayCommand}

theorem draws_balanced (drawn : commands.all DisplayCommand.draws = true) :
    ClipBalanced commands ∧ commands.all DisplayCommand.sized = true := by
  induction commands with
  | nil => exact ⟨closes_from_nil.mpr rfl, rfl⟩
  | cons command rest ih =>
    rw [List.all_cons, Bool.and_eq_true] at drawn
    obtain ⟨balanced, sized⟩ := ih drawn.2
    have here := drawn.1
    cases command with
    | pushClipRect | popClip => cases here
    | drawText | drawRect | drawImage =>
      refine ⟨closes_from_cons.mpr ⟨Nat.zero_le _, balanced⟩, ?_⟩
      rw [List.all_cons, sized]
      rfl

theorem draws_translate (offset : Offset) (drawn : commands.all DisplayCommand.draws = true) :
    (commands.map (DisplayCommand.translate offset)).all DisplayCommand.draws = true := by
  rw [List.all_map]
  refine List.all_eq_true.mpr fun command listed => ?_
  have here := List.all_eq_true.mp drawn command listed
  cases command <;> exact here

end Drawing

namespace Recorder

/-- What has been recorded. -/
def pieces (recorder : Recorder) : List Piece :=
  recorder.chunks.flatMap BoundaryChunk.pieces ++ recorder.builder.commands.map .command

/-- No clip is open in the list that is being built. -/
structure Plain (recorder : Recorder) : Prop where
  depth : recorder.builder.clipDepth = 0
  draws : recorder.builder.commands.all DisplayCommand.draws = true

/-- The recorder has these pieces more, in chunks that close their clips, and has painted some
of these objects, each of them once. -/
structure Adds (before after : Recorder) (pieces : List Piece) (among : RenderId → Prop) :
    Prop where
  plain : after.Plain
  pieces : after.pieces = before.pieces ++ pieces
  chunks : ∃ added, after.chunks = before.chunks ++ added ∧
    Balanced BoundaryChunk.pushes BoundaryChunk.pops added ∧
    added.all BoundaryChunk.sized = true
  painted : ∃ ids, after.painted = before.painted ++ ids ∧ ids.Nodup ∧ ∀ id ∈ ids, among id

section Adding
variable {recorder before after last : Recorder} {added more : List Piece}
  {among others : RenderId → Prop} {chunk : BoundaryChunk} {rect : Rect}

theorem Adds.refl (plain : recorder.Plain) : recorder.Adds recorder [] among :=
  ⟨plain, (List.append_nil _).symm, ⟨[], (List.append_nil _).symm, closes_from_nil.mpr rfl, rfl⟩,
    ⟨[], (List.append_nil _).symm, List.nodup_nil, fun _ listed => absurd listed List.not_mem_nil⟩⟩

theorem Adds.trans (first : before.Adds after added among) (second : after.Adds last more others)
    (apart : ∀ id, among id → ¬others id) :
    before.Adds last (added ++ more) fun id => among id ∨ others id := by
  obtain ⟨_, pieces, ⟨added, chunks, balanced, sized⟩, ids, painted, distinct, each⟩ := first
  obtain ⟨plain, pieces', ⟨added', chunks', balanced', sized'⟩, ids', painted', distinct',
    each'⟩ := second
  refine ⟨plain, ?_, ⟨added ++ added', ?_, balanced.append balanced', ?_⟩, ids ++ ids', ?_, ?_,
    ?_⟩
  · rw [pieces', pieces, List.append_assoc]
  · rw [chunks', chunks, List.append_assoc]
  · rw [List.all_append, sized, sized']
    rfl
  · rw [painted', painted, List.append_assoc]
  · refine List.nodup_append.mpr ⟨distinct, distinct', fun id listed other also same => ?_⟩
    subst same
    exact apart id (each id listed) (each' id also)
  · intro id listed
    exact (List.mem_append.mp listed).imp (each id) (each' id)

theorem Adds.mono (adds : before.Adds after added among) (within : ∀ id, among id → others id) :
    before.Adds after added others := by
  obtain ⟨plain, pieces, chunks, ids, painted, distinct, each⟩ := adds
  exact ⟨plain, pieces, chunks, ids, painted, distinct, fun id listed => within id (each id listed)⟩

/-- What is being built becomes a chunk. -/
theorem flush_plain (plain : recorder.Plain) : ∃ drawn, recorder.flush = .ok
      { recorder with builder := {}, chunks := recorder.chunks ++ drawn } ∧
    drawn.flatMap BoundaryChunk.pieces = recorder.builder.commands.map .command ∧
    Balanced BoundaryChunk.pushes BoundaryChunk.pops drawn ∧
    drawn.all BoundaryChunk.sized = true := by
  obtain ⟨⟨commands, depth⟩, chunks, painted⟩ := recorder
  obtain ⟨rfl, draws⟩ : depth = 0 ∧ commands.all DisplayCommand.draws = true := ⟨plain.1, plain.2⟩
  by_cases empty : commands = []
  · subst empty
    refine ⟨[], ?_, rfl, closes_from_nil.mpr rfl, rfl⟩
    rw [flush, if_pos rfl, List.append_nil]
  · obtain ⟨balanced, sized⟩ := draws_balanced draws
    obtain ⟨display, created, same⟩ := create_accepts_iff.mpr balanced
    refine ⟨[.display display], ?_, ?_, ?_, ?_⟩
    · have built : DisplayListBuilder.build ⟨commands, 0⟩ = .ok display := by
        rw [DisplayListBuilder.build, if_neg (not_not.mpr rfl), created]
      rw [flush, if_neg empty]
      dsimp only
      rw [built]
      rfl
    · rw [List.flatMap_singleton, BoundaryChunk.pieces, same]
    · exact closes_from_cons.mpr ⟨Nat.zero_le _, closes_from_nil.mpr rfl⟩
    · refine (Bool.and_true _).trans ?_
      rw [BoundaryChunk.sized, same]
      exact sized

theorem add_chunk_plain (plain : recorder.Plain) (chunk : BoundaryChunk) :
    ∃ drawn, recorder.addChunk chunk = .ok
        { recorder with builder := {}, chunks := recorder.chunks ++ drawn ++ [chunk] } ∧
      drawn.flatMap BoundaryChunk.pieces = recorder.builder.commands.map .command ∧
      Balanced BoundaryChunk.pushes BoundaryChunk.pops drawn ∧
      drawn.all BoundaryChunk.sized = true := by
  obtain ⟨drawn, flushed, facts⟩ := flush_plain plain
  refine ⟨drawn, ?_, facts⟩
  rw [addChunk, flushed]
  rfl

/-- A slot after what was drawn. -/
theorem add_child (plain : recorder.Plain) (id : RenderId) (offset : Offset) :
    ∃ after, recorder.addChunk (.child id offset) = .ok after ∧
      recorder.Adds after [.slot id offset] among := by
  obtain ⟨drawn, added, pieces, balanced, sized⟩ := add_chunk_plain plain (.child id offset)
  refine ⟨_, added, ⟨rfl, rfl⟩, ?_, ⟨drawn ++ [.child id offset], List.append_assoc .., ?_, ?_⟩,
    [], (List.append_nil _).symm, List.nodup_nil, fun _ listed => absurd listed List.not_mem_nil⟩
  · simp [Recorder.pieces, pieces, BoundaryChunk.pieces]
  · exact balanced.append (closes_from_cons.mpr ⟨Nat.zero_le _, closes_from_nil.mpr rfl⟩)
  · rw [List.all_append, sized]
    rfl

/-- What is recorded between the begin and the end of a clip. -/
theorem clipped (plain : recorder.Plain)
    (sized : (DisplayCommand.pushClipRect rect).sized = true) :
    ∃ begun, recorder.addChunk (.clipBegin rect) = .ok begun ∧ begun.Plain ∧
      ∀ {mid added among}, begun.Adds mid added among → ∃ after,
        mid.addChunk .clipEnd = .ok after ∧ after.painted = mid.painted ∧
          recorder.Adds after
            (.command (.pushClipRect rect) :: added ++ [.command .popClip]) among := by
  obtain ⟨drawn, begun, pieces, balanced, whole⟩ := add_chunk_plain plain (.clipBegin rect)
  refine ⟨_, begun, ⟨rfl, rfl⟩, fun {mid added among} adds => ?_⟩
  obtain ⟨plain, same, ⟨inner, chunks, nested, all⟩, ids, painted, distinct, each⟩ := adds
  obtain ⟨last, ended, pieces', balanced', whole'⟩ := add_chunk_plain plain .clipEnd
  refine ⟨_, ended, rfl, ⟨rfl, rfl⟩, ?_, ⟨drawn ++
    (.clipBegin rect :: (inner ++ last) ++ [.clipEnd]), ?_, ?_, ?_⟩, ids, painted, distinct, each⟩
  · have within : mid.pieces = recorder.pieces ++ .command (.pushClipRect rect) :: added := by
      rw [same]
      simp [Recorder.pieces, pieces, BoundaryChunk.pieces]
    have outer : (mid.chunks ++ last ++ [BoundaryChunk.clipEnd]).flatMap BoundaryChunk.pieces =
        mid.pieces ++ [.command .popClip] := by
      rw [List.flatMap_append, List.flatMap_append, pieces']
      rfl
    change (mid.chunks ++ last ++ [BoundaryChunk.clipEnd]).flatMap BoundaryChunk.pieces ++ [] = _
    rw [outer, within]
    simp
  · change mid.chunks ++ last ++ [BoundaryChunk.clipEnd] = _
    rw [chunks]
    simp
  · exact balanced.append (Balanced.wrap (nested.append balanced') rfl rfl rfl rfl)
  · simp [List.all_append, whole, all, whole', BoundaryChunk.sized, sized]

end Adding

end Recorder

/-! What objects paint. -/

section Objects
variable {object : RenderObject} {recorder : Recorder} {id : RenderId} {offset : Offset}
  {among : RenderId → Prop}

theorem paint_draws (object : RenderObject) (builder : DisplayListBuilder) (offset : Offset) :
    object.paint builder offset = { builder with
      commands := builder.commands ++ object.look.drawn.map (DisplayCommand.translate offset) } ∧
    object.look.drawn.all DisplayCommand.draws = true := by
  obtain ⟨own, parent, children, kind, needsLayout, constraints, measure, place⟩ := object
  have moved := zero_add_offset offset
  cases kind with
  | text text =>
    refine ⟨?_, rfl⟩
    change _ = { builder with
      commands := builder.commands ++ [DisplayCommand.drawText text (({} : Offset) + offset)] }
    rw [moved]
    rfl
  | image asset =>
    refine ⟨?_, rfl⟩
    change _ = { builder with
      commands := builder.commands ++
        [DisplayCommand.drawImage asset ⟨({} : Offset) + offset, measure.size⟩] }
    rw [moved]
    rfl
  | coloredBox color =>
    refine ⟨?_, rfl⟩
    change _ = { builder with
      commands := builder.commands ++
        [DisplayCommand.drawRect ⟨({} : Offset) + offset, measure.size⟩ color] }
    rw [moved]
    rfl
  | _ => exact ⟨congrArg (fun commands => DisplayListBuilder.mk commands _)
      (List.append_nil _).symm, rfl⟩

theorem paint_clip_eq (object : RenderObject) (offset : Offset) : object.paintClip offset =
    if object.look.clips then some ⟨offset, object.look.size⟩ else none := by
  obtain ⟨own, parent, children, kind, needsLayout, constraints, measure, place⟩ := object
  cases kind <;> rfl

theorem paint_adds (plain : recorder.Plain) (here : among id) :
    recorder.Adds (recorder.paint id object offset)
      (object.look.drawn.map fun command => .command (command.translate offset)) among := by
  obtain ⟨painted, draws⟩ := paint_draws object recorder.builder offset
  refine ⟨⟨?_, ?_⟩, ?_, ⟨[], (List.append_nil _).symm, closes_from_nil.mpr rfl, rfl⟩, [id], rfl,
    List.nodup_singleton id, fun other listed => ?_⟩
  · exact (congrArg DisplayListBuilder.clipDepth painted).trans plain.depth
  · change (object.paint recorder.builder offset).commands.all DisplayCommand.draws = true
    rw [painted, List.all_append, plain.draws, draws_translate offset draws]
    rfl
  · change recorder.chunks.flatMap BoundaryChunk.pieces ++
      (object.paint recorder.builder offset).commands.map Piece.command = _
    rw [painted, List.map_append, List.map_map, ← List.append_assoc]
    rfl
  · rw [List.mem_singleton.mp listed]
    exact here

end Objects

/-! Recording objects. -/

section Recording
variable {owner : RenderOwner} {ensure : RenderId → Compositing Unit} {top id : RenderId}
  {object : RenderObject} {compositor : Compositor} {recorder : Recorder}

theorem hosted_below {boundary : RenderId} (hosted : owner.Hosted boundary id) :
    Below owner.tree boundary id := by
  induction hosted with
  | self => exact below_self _
  | inner named _ _ ih => exact .head named ih

/-- What is recorded of an object with a boundary: the object and what is painted below it. -/
def RecordedWith (owner : RenderOwner) (top id other : RenderId) : Prop :=
  owner.Hosted top other ∧ owner.Painted other ∧ Below owner.tree id other

/-- Nothing is below two siblings. -/
theorem below_one {one another parent other : RenderId}
    (sound : RenderTree.Sound owner.tree owner.nextId)
    (first : ParentOf renderKeys owner.tree one parent)
    (second : ParentOf renderKeys owner.tree another parent) (below : Below owner.tree one other)
    (also : Below owner.tree another other) : one = another := by
  have unique : Relator.RightUnique (ParentOf renderKeys owner.tree) :=
    fun _ _ _ named also => named.unique also
  rcases Relation.ReflTransGen.total_of_right_unique unique below also with under | under
  · exact sound.siblings_apart first second under
  · exact (sound.siblings_apart second first under).symm

/-- What recording an object comes to. -/
def RecordsObject (owner : RenderOwner) (top : RenderId)
    (record : RenderId → Offset → Recorder → Compositing Recorder) (id : RenderId) : Prop :=
  ∀ object offset recorder compositor, owner.objects id = some object →
    compositor.Composes owner → owner.Painted id → owner.Hosted top id → recorder.Plain →
    Completes (record id offset recorder) compositor fun after next => next.Composes owner ∧
      compositor.Advances next owner (StrictlyBelow owner.tree top) ∧ id ∈ after.painted ∧
      ∃ below, Records owner.rangedScene object.ranged.look.children offset below ∧
        recorder.Adds after (object.ranged.look.enclose .command offset below)
          (RecordedWith owner top id)

/-- Recording the children of an object, boundaries among them, by induction on the children. -/
theorem record_children {record : RenderId → Offset → Recorder → Compositing Recorder}
    (sound : RenderTree.Sound owner.tree owner.nextId) (paintable : owner.Paintable)
    (ensures : Ensures owner top ensure) (hosted : owner.Hosted top id) (offset : Offset) :
    ∀ children : List RenderId, children.Nodup →
      (∀ child ∈ children, owner.Painted child ∧ ParentOf renderKeys owner.tree child id ∧
        RecordsObject owner top record child) →
      ∀ recorder compositor, compositor.Composes owner → recorder.Plain →
      Completes (recordChildren ensure record offset children recorder) compositor
        fun after next => next.Composes owner ∧
          compositor.Advances next owner (StrictlyBelow owner.tree top) ∧
          (∀ other ∈ recorder.painted, other ∈ after.painted) ∧
          ∃ below, Records owner.rangedScene children offset below ∧
            recorder.Adds after below
              (fun other => ∃ child ∈ children, RecordedWith owner top child other) := by
  intro children
  induction children with
  | nil =>
    intro _ _ recorder compositor composes plain
    exact Completes.pure ⟨composes, .refl _, fun _ listed => listed, [], .none, .refl plain⟩
  | cons child rest ih =>
    intro distinct each recorder compositor composes plain
    obtain ⟨painted, named, records⟩ := each child List.mem_cons_self
    obtain ⟨object, found, able⟩ := paintable child painted
    have there : compositor.owner.objects child = some object := by
      rw [composes.same]
      exact found
    have within := fun other (listed : other ∈ rest) => each other (List.mem_cons_of_mem _ listed)
    have later := ih (List.nodup_cons.mp distinct).2 within
    -- what is below another child is not below this one
    have apart : ∀ other, RecordedWith owner top child other →
        ¬∃ sibling ∈ rest, RecordedWith owner top sibling other := by
      rintro other ⟨_, _, below⟩ ⟨sibling, listed, _, _, also⟩
      have same := below_one sound named (within sibling listed).2.1 below also
      exact (List.nodup_cons.mp distinct).1 (same ▸ listed)
    have place := ranged_scene_of found
    rw [recordChildren]
    refine Completes.reading ?_
    rw [there]
    dsimp only
    by_cases boundary : object.kind.hasRepaintBoundary = true
    · rw [if_pos boundary]
      have under : StrictlyBelow owner.tree top child :=
        Relation.TransGen.head' named (hosted_below hosted)
      refine Completes.bind ((ensures compositor child composes painted
        ((boundary_of found).trans boundary) under).mono ?_)
      rintro _ middle ⟨composed, advances, _⟩
      obtain ⟨slotted, added, adds⟩ : ∃ slotted,
          recorder.addChunk (.child child (offset + object.offset)) = .ok slotted ∧
            recorder.Adds slotted [.slot child (offset + object.offset)]
              (RecordedWith owner top child) := Recorder.add_child plain child _
      refine Completes.resuming added ((later slotted middle composed adds.plain).mono ?_)
      rintro after next ⟨composed, further, kept, below, recorded, more⟩
      have region : ∀ other, Below owner.tree child other → StrictlyBelow owner.tree top other :=
        fun other below => Relation.TransGen.trans_right below under
      refine ⟨composed, (advances.widen region).trans further, fun other listed => ?_,
        .slot child (offset + object.offset) :: below,
        .boundary place ((ranged_boundary object).trans boundary) recorded,
        (adds.trans more apart).mono ?_⟩
      · obtain ⟨ids, same, _⟩ := adds.painted
        exact kept other (same ▸ List.mem_append_left _ listed)
      · rintro other (here | ⟨sibling, listed, there⟩)
        · exact ⟨child, List.mem_cons_self, here⟩
        · exact ⟨sibling, List.mem_cons_of_mem _ listed, there⟩
    · rw [if_neg boundary]
      have unbounded : owner.isRepaintBoundary child = false :=
        (boundary_of found).trans (Bool.eq_false_iff.mpr boundary)
      refine Completes.bind ((records object (offset + object.offset) recorder compositor found
        composes painted (.inner named unbounded hosted) plain).mono ?_)
      rintro inner middle ⟨composed, advances, _, below, recorded, adds⟩
      refine (later inner middle composed adds.plain).mono ?_
      rintro after next ⟨composed, further, kept, others, siblings, more⟩
      refine ⟨composed, advances.trans further, fun other listed => ?_, _,
        .inner place ((ranged_boundary object).trans (Bool.eq_false_iff.mpr boundary)) recorded
          siblings, (adds.trans more apart).mono ?_⟩
      · obtain ⟨ids, same, _⟩ := adds.painted
        exact kept other (same ▸ List.mem_append_left _ listed)
      · rintro other (here | ⟨sibling, listed, there⟩)
        · exact ⟨child, List.mem_cons_self, here⟩
        · exact ⟨sibling, List.mem_cons_of_mem _ listed, there⟩

/-- Recording an object, by induction on the depth that is left. -/
theorem record_object (sound : RenderTree.Sound owner.tree owner.nextId)
    (paintable : owner.Paintable) (ensures : Ensures owner top ensure) (fuel : Nat) : ∀ id,
    Room renderKeys owner.tree (List.range owner.nextId) fuel id →
      RecordsObject owner top (recordObject ensure fuel) id := by
  induction fuel with
  | zero =>
    intro id room object offset recorder compositor found
    have listed := sound.among ((congrArg Option.isSome (tree_of_object found)).trans rfl)
    exact absurd room (Room.positive sound.forest listed)
  | succ fuel ih =>
    intro id room object offset recorder compositor found composes painted hosted plain
    have listed := sound.among ((congrArg Option.isSome (tree_of_object found)).trans rfl)
    obtain ⟨_, again, able⟩ := paintable id painted
    cases found.symm.trans again
    have there : compositor.owner.objects id = some object := by
      rw [composes.same]
      exact found
    have inside : ¬(object.paintChildRange.1 > object.paintChildRange.2 ∨
        object.paintChildRange.2 > object.children.length) := by
      rw [not_or, not_lt, not_lt]
      exact ⟨able.first, able.last⟩
    have distinct : object.paintChildren.Nodup :=
      ((sound.distinct (tree_of_object found)).sublist (List.take_sublist _ _)).sublist
        (List.drop_sublist _ _)
    have each : ∀ child ∈ object.paintChildren, owner.Painted child ∧
        ParentOf renderKeys owner.tree child id ∧
          RecordsObject owner top (recordObject ensure fuel) child := by
      intro child among
      have listed_ : child ∈ object.ranged.look.children := by
        rw [able.ranged]
        exact among
      obtain ⟨painted, named⟩ := painted_child sound able painted found listed_
      exact ⟨painted, named, ih child (room.child sound.forest listed named)⟩
    -- the object itself and then its children, from wherever the recorder is
    have body : ∀ begun : Recorder, begun.Plain → ∀ {rest : Recorder → Compositing Recorder}
        {post : Recorder → Compositor → Prop},
        (∀ after next, next.Composes owner →
          compositor.Advances next owner (StrictlyBelow owner.tree top) → id ∈ after.painted →
          (∃ below, Records owner.rangedScene object.paintChildren offset below ∧
            begun.Adds after ((object.look.drawn.map fun command =>
              .command (command.translate offset)) ++ below) (RecordedWith owner top id)) →
          Completes (rest after) next post) →
        Completes (if object.paintChildRange.1 > object.paintChildRange.2 ∨
            object.paintChildRange.2 > object.children.length then
          Run.throw (.logicError "RenderObject returned an invalid paint child range")
        else
          recordChildren ensure (recordObject ensure fuel) offset object.paintChildren
            (begun.paint id object offset) >>= rest) compositor post := by
      intro begun plain rest post going
      rw [if_neg inside]
      have own : begun.Adds (begun.paint id object offset) (object.look.drawn.map fun command =>
          .command (command.translate offset)) (· = id) := paint_adds plain rfl
      refine Completes.bind ((record_children sound paintable ensures hosted offset
        object.paintChildren distinct each _ compositor composes own.plain).mono ?_)
      rintro after next ⟨composed, advances, kept, below, recorded, adds⟩
      refine going after next composed advances
        (kept id (List.mem_append_right _ (List.mem_singleton_self id))) ⟨below, recorded, ?_⟩
      refine (own.trans adds fun other same => ?_).mono fun other added => ?_
      · rintro ⟨child, among, _, _, under⟩
        subst same
        exact sound.not_above (each child among).2.1 under
      · rcases added with rfl | ⟨child, among, inner, seen, under⟩
        · exact ⟨hosted, painted, below_self other⟩
        · exact ⟨inner, seen, under.tail (each child among).2.1⟩
    rw [recordObject]
    refine Completes.reading ?_
    rw [there]
    dsimp only
    rw [able.ranged, paint_clip_eq]
    unfold Look.enclose
    by_cases clips : object.look.clips = true
    · rw [if_pos clips]
      have sized : (DisplayCommand.pushClipRect ⟨offset, object.look.size⟩).sized = true := by
        simp only [DisplayCommand.sized, Bool.and_eq_true, decide_eq_true_eq]
        exact able.sized
      obtain ⟨begun, started, plain, ends⟩ := Recorder.clipped plain sized
      refine Completes.resuming started (body begun plain fun after next composed advances seen =>
        ?_)
      rintro ⟨below, recorded, adds⟩
      obtain ⟨last, ended, same, adds⟩ := ends adds
      refine Completes.resume ended ⟨composed, advances, same ▸ seen, below, recorded, ?_⟩
      dsimp only
      rw [if_pos clips]
      exact adds
    · rw [if_neg clips]
      refine Completes.resuming rfl (body recorder plain fun after next composed advances seen =>
        ?_)
      rintro ⟨below, recorded, adds⟩
      refine Completes.resume rfl ⟨composed, advances, seen, below, recorded, ?_⟩
      dsimp only
      rw [if_neg clips]
      exact adds

end Recording

/-! Boundaries. -/

section Boundaries
variable {owner : RenderOwner} {ensure : RenderId → Compositing Unit} {id : RenderId}
  {compositor after next : Compositor} {chunks : List BoundaryChunk} {painted : List RenderId}

/-- The boundary gets its new chunks. -/
theorem keep_chunks (composes : compositor.Composes owner)
    (needed : compositor.owner.paint.needsPaint id = true)
    (good : ChunksOf owner.rangedScene id chunks) :
    (compositor.keepChunks id chunks).Composes owner ∧
      compositor.Advances (compositor.keepChunks id chunks) owner (Below owner.tree id) ∧
      (compositor.keepChunks id chunks).boundaryChunks id = chunks := by
  obtain ⟨same, fresh, kept, recorded, composed⟩ := composes
  have others : ∀ other, other ≠ id →
      (compositor.keepChunks id chunks).boundaryChunks other = compositor.boundaryChunks other :=
    fun other different => Function.update_of_ne different _ _
  refine ⟨⟨same, fresh, kept, fun other apart clean => ?_, composed⟩,
    ⟨fun _ flag => flag, fun _ flag => flag, fun other clean => others other ?_, fun _ _ => rfl,
      fun other outside => ⟨rfl, others other ?_⟩, fun _ => .inl rfl, rfl⟩,
    Function.update_self ..⟩
  · by_cases here : other = id
    · subst here
      have own : (compositor.keepChunks other chunks).boundaryChunks other = chunks :=
        Function.update_self ..
      rwa [own]
    · rw [others other here]
      exact recorded other apart clean
  · rintro rfl
    rw [needed] at clean
    cases clean
  · rintro rfl
    exact outside (below_self other)

/-- What was painted with the boundary does not need paint any more. -/
theorem finish_recording (sound : RenderTree.Sound owner.tree owner.nextId)
    (paintable : owner.Paintable) (composes : next.Composes owner)
    (apart : owner.isRepaintBoundary id = true)
    (needed : next.owner.paint.needsPaint id = true)
    (good : ChunksOf owner.rangedScene id (next.boundaryChunks id))
    (layered : ∃ layer, next.retainedLayer id = some layer ∧ LayerOf owner.rangedScene id layer)
    (own : id ∈ painted) (distinct : painted.Nodup)
    (each : ∀ other ∈ painted, RecordedWith owner id id other) :
    (next.finishRecording id painted).Composes owner ∧
      next.Advances (next.finishRecording id painted) owner (Below owner.tree id) ∧
      (next.finishRecording id painted).owner.paint.flagged id = false := by
  obtain ⟨same, fresh, kept, recorded, composed⟩ := composes
  have needs : ∀ other, (next.finishRecording id painted).owner.paint.needsPaint other =
      (next.owner.paint.needsPaint other && decide (other ∉ painted)) := fun _ => rfl
  have clean : (next.finishRecording id painted).owner.paint.needsPaint id = false := by
    rw [needs, decide_eq_false (not_not.mpr own), Bool.and_false]
  have cleared : (next.finishRecording id painted).owner.paint.needsCompositing id = false :=
    Function.update_self ..
  -- no other boundary is painted with this one
  have alone : ∀ other, owner.isRepaintBoundary other = true → other ≠ id → other ∉ painted := by
    intro other boundary different listed
    cases (each other listed).1 with
    | self => exact different rfl
    | inner _ within _ =>
      rw [boundary] at within
      cases within
  have elsewhere : ∀ other, other ∉ painted → other ≠ id →
      (next.finishRecording id painted).owner.paint.needsPaint other =
          next.owner.paint.needsPaint other ∧
        (next.finishRecording id painted).owner.paint.flagged other =
          next.owner.paint.flagged other := by
    intro other unlisted different
    have same : (next.finishRecording id painted).owner.paint.needsPaint other =
        next.owner.paint.needsPaint other := by
      rw [needs, decide_eq_true unlisted, Bool.and_true]
    refine ⟨same, ?_⟩
    unfold PaintState.flagged
    rw [same]
    exact congrArg _ (Function.update_of_ne different _ _)
  have lowered : ∀ other, (next.finishRecording id painted).owner.paint.needsPaint other = true →
      next.owner.paint.needsPaint other = true := by
    intro other flag
    rw [needs, Bool.and_eq_true] at flag
    exact flag.1
  refine ⟨⟨?_, fun other issued => ?_, fun other boundary silent => ?_,
    fun other boundary silent => ?_, fun other boundary quiet => ?_⟩,
    ⟨lowered, fun other flag => ?_, fun _ _ => rfl, fun _ _ => rfl,
      fun other outside => ⟨?_, rfl⟩, fun other => ?_, rfl⟩, ?_⟩
  · exact congrArg (fun owner : RenderOwner =>
      { owner with paint := (next.finishRecording id painted).owner.paint }) same
  · have unlisted : other ∉ painted := by
      intro listed
      obtain ⟨object, found, _⟩ := paintable other (each other listed).2.1
      have known := sound.issued other ((congrArg Option.isSome (tree_of_object found)).trans rfl)
      exact absurd known.2 (Nat.not_lt.mpr issued)
    rw [needs, fresh other issued, decide_eq_true unlisted]
    rfl
  · by_cases here : other = id
    · subst here
      obtain ⟨layer, held, _⟩ := layered
      exact (congrArg Option.isSome held).trans rfl
    · rw [(elsewhere other (alone other boundary here) here).1] at silent
      exact kept other boundary silent
  · by_cases here : other = id
    · subst here
      exact good
    · rw [(elsewhere other (alone other boundary here) here).1] at silent
      exact recorded other boundary silent
  · by_cases here : other = id
    · subst here
      exact layered
    · rw [(elsewhere other (alone other boundary here) here).2] at quiet
      exact composed other boundary quiet
  · unfold PaintState.flagged at flag ⊢
    rw [Bool.or_eq_true] at flag ⊢
    rcases flag with flag | flag
    · exact .inl (lowered other flag)
    · by_cases here : other = id
      · rw [here, cleared] at flag
        cases flag
      · exact .inr ((Function.update_of_ne here _ _).symm.trans flag)
  · have unlisted : other ∉ painted := fun listed => outside (each other listed).2.2
    rw [needs, decide_eq_true unlisted, Bool.and_true]
  · by_cases listed : other ∈ painted
    · refine .inr ⟨?_, id, apart, (each other listed).1, needed, clean⟩
      exact congrArg _ (List.count_eq_one_of_mem distinct listed)
    · exact .inl (congrArg _ (List.count_eq_zero_of_not_mem listed))
  · unfold PaintState.flagged
    rw [clean, cleared]
    rfl

/-- Recording a boundary that needs paint. -/
theorem record_boundary (sound : RenderTree.Sound owner.tree owner.nextId)
    (paintable : owner.Paintable) (ensures : Ensures owner id ensure)
    (composes : compositor.Composes owner) (seen : owner.Painted id)
    (apart : owner.isRepaintBoundary id = true)
    (needed : compositor.owner.paint.needsPaint id = true) :
    Completes (recordBoundary ensure id) compositor fun _ next => next.Composes owner ∧
      compositor.Advances next owner (Below owner.tree id) ∧
      next.owner.paint.flagged id = false := by
  have strict : ¬StrictlyBelow owner.tree id id := sound.forest.acyclic id
  have region : ∀ other, StrictlyBelow owner.tree id other → Below owner.tree id other :=
    fun other below => below.to_reflTransGen
  obtain ⟨object, found, _⟩ := paintable id seen
  have next : compositor.owner.nextId = owner.nextId := by rw [composes.same]
  refine Completes.reading ?_
  rw [next]
  refine Completes.bind ((record_object sound paintable ensures owner.nextId id
    (room_initially owner id) object {} {} compositor found composes seen .self
    ⟨rfl, rfl⟩).mono ?_)
  rintro recorder recorded ⟨composes, first, own, below, records, adds⟩
  obtain ⟨plain, pieces, ⟨added, chunks, balanced, sized⟩, painted, same, distinct, each⟩ := adds
  obtain ⟨drawn, flushed, built, closed, whole⟩ := Recorder.flush_plain plain
  have good : ChunksOf owner.rangedScene id (recorder.chunks ++ drawn) := by
    refine ⟨⟨_, below, ranged_scene_of found, records, ?_⟩, ?_, ?_⟩
    · rw [List.flatMap_append, built]
      exact pieces.symm
    · rw [chunks]
      exact balanced.append closed
    · rw [chunks, List.all_append, List.all_append, sized, whole]
      rfl
  have needed : recorded.owner.paint.needsPaint id = true :=
    (first.elsewhere id strict).1.trans needed
  obtain ⟨composes, second, held⟩ := keep_chunks composes needed good
  refine Completes.resuming flushed (Completes.reading (Completes.changing (Completes.attempting
    ((compose_boundary ensures sound paintable composes seen ?_ ?_).mono ?_))))
  · rwa [held]
  · unfold PaintState.flagged
    exact (congrArg (· || _) needed).trans (Bool.true_or _)
  · rintro _ composed ⟨composes, third, cleared, layered⟩
    have needed : composed.owner.paint.needsPaint id = true :=
      (third.elsewhere id strict).1.trans needed
    have good : ChunksOf owner.rangedScene id (composed.boundaryChunks id) := by
      rw [(third.elsewhere id strict).2, held]
      exact good
    obtain rfl : recorder.painted = painted := same
    obtain ⟨composes, last, quiet⟩ := finish_recording sound paintable composes apart needed good
      layered own distinct each
    exact Completes.change ⟨composes,
      (((first.widen region).trans second).trans (third.widen region)).trans last, quiet⟩

/-- Ensuring a boundary leaves it without a flag, by induction on the depth that is left. -/
theorem ensure_boundary (sound : RenderTree.Sound owner.tree owner.nextId)
    (paintable : owner.Paintable) (fuel : Nat) : ∀ id compositor,
    Room renderKeys owner.tree (List.range owner.nextId) fuel id → compositor.Composes owner →
    owner.Painted id → owner.isRepaintBoundary id = true →
    Completes (ensureBoundary fuel id) compositor fun _ next => next.Composes owner ∧
      compositor.Advances next owner (Below owner.tree id) ∧
      next.owner.paint.flagged id = false := by
  induction fuel with
  | zero =>
    intro id compositor room _ seen _
    obtain ⟨object, found, _⟩ := paintable id seen
    have listed := sound.among ((congrArg Option.isSome (tree_of_object found)).trans rfl)
    exact absurd room (Room.positive sound.forest listed)
  | succ fuel ih =>
    intro id compositor room composes seen apart
    obtain ⟨object, found, _⟩ := paintable id seen
    have listed := sound.among ((congrArg Option.isSome (tree_of_object found)).trans rfl)
    have ensures : Ensures owner id (ensureBoundary fuel) :=
      fun compositor other composes painted boundary below =>
        ih other compositor (room.below sound.forest listed below) composes painted boundary
    refine Completes.reading ?_
    rw [composes.boundary, apart, Bool.not_true, if_neg Bool.false_ne_true]
    have kept := composes.holds.kept id apart
    cases needed : compositor.owner.paint.needsPaint id with
    | true =>
      rw [Bool.true_or, if_pos rfl]
      exact record_boundary sound paintable ensures composes seen apart needed
    | false =>
      obtain ⟨layer, held⟩ := Option.isSome_iff_exists.mp (kept needed)
      rw [held, Option.isNone_some, Bool.or_false, if_neg Bool.false_ne_true]
      cases flag : compositor.owner.paint.needsCompositing id with
      | true =>
        have flagged : compositor.owner.paint.flagged id = true := by
          unfold PaintState.flagged
          rw [flag, Bool.or_true]
        rw [if_pos rfl]
        refine (compose_boundary ensures sound paintable composes seen
          (composes.holds.recorded id apart needed) flagged).mono ?_
        rintro _ next ⟨composed, advances, cleared, _⟩
        refine ⟨composed, advances.widen fun other below => below.to_reflTransGen, ?_⟩
        unfold PaintState.flagged
        rw [advances.clean needed, cleared]
        rfl
      | false =>
        rw [if_neg Bool.false_ne_true]
        refine Completes.pure ⟨composes, .refl _, ?_⟩
        unfold PaintState.flagged
        rw [needed, flag]
        rfl

end Boundaries

end Dui
