import Dui.RetainedChanges
import Dui.BoundaryRecording
import Dui.MeasuredSizes

/-! Frames of a render tree. Whatever has been done to the tree and whichever frames have been
made of it, the next frame shows the tree as it is, just as a frame does that is composed from
scratch, and paints only what is recorded with boundaries that need it. -/
namespace Dui
open Effect ForestEdit Nesting Transition

section Frames
variable {compositor next : Compositor} {owner : RenderOwner} {viewport : BoxConstraints}
  {layer : Layer} {tree : Layer.Tree} {commands : List DisplayCommand}

/-- A tree whose display lists have no clip of negative size is flattened to its picture. -/
theorem flatten_commands (rooted : tree.root = some layer) (sized : layer.sized = true) :
    ∃ display, tree.flatten = .ok display ∧ display.commands = layer.commands := by
  obtain ⟨display, created, same⟩ := create_accepts_iff.mpr (layer.painted_balanced [])
  refine ⟨display, ?_, same⟩
  have appended : tree.appended = .ok { commands := layer.commands } := by
    unfold Layer.Tree.appended
    rw [rooted]
    refine (layer.append_layer_eq {} []).trans ?_
    unfold Layer.flattened
    exact if_pos sized
  have built : DisplayListBuilder.build { commands := layer.commands } = .ok display := by
    rw [DisplayListBuilder.build, if_neg (not_not.mpr rfl)]
    exact created
  unfold Layer.Tree.flatten
  rw [appended]
  exact built

theorem painted_of_same {after : RenderOwner} (objects : after.objects = owner.objects)
    (root : after.root = owner.root) {id : RenderId} (painted : after.Painted id) :
    owner.Painted id := by
  induction painted with
  | root =>
    rw [root]
    exact .root
  | child _ found listed ih =>
    rw [objects] at found
    exact .child ih found listed

/-- What can be painted looks as layout works it out. -/
theorem shows_of_paintable (paintable : owner.Paintable) {id : RenderId}
    (painted : owner.Painted id) (shows_ : Shows owner.rangedScene id commands) :
    Shows owner.scene id commands := by
  have looks : ∀ other node, owner.Painted other → owner.rangedScene other = some node →
      owner.scene other = some node ∧ ∀ child ∈ node.look.children, owner.Painted child := by
    intro other node seen found
    obtain ⟨object, held, rfl⟩ := ranged_scene_found found
    obtain ⟨_, again, able⟩ := paintable other seen
    cases held.symm.trans again
    rw [able.ranged]
    refine ⟨?_, fun child listed => .child seen held listed⟩
    unfold RenderOwner.scene
    rw [held, Option.map_some]
  obtain ⟨node, below, found, paints, same⟩ := shows_
  obtain ⟨here, children⟩ := looks id node painted found
  exact ⟨node, below, here, paints.congr owner.Painted children looks, same⟩

/-- The tree shows the objects of the owner, within the size of the root. -/
structure FrameOf (owner : RenderOwner) (tree : Layer.Tree) : Prop where
  size : tree.frameSize = owner.rootSize
  shown : ∃ display, tree.flatten = .ok display ∧ Shows owner.scene owner.root display.commands

/-- What a frame shows depends on the objects alone. -/
theorem FrameOf.same {after : RenderOwner} (frame : FrameOf owner tree)
    (objects : after.objects = owner.objects) (root : after.root = owner.root) :
    FrameOf after tree := by
  obtain ⟨size, display, flattened, shown⟩ := frame
  refine ⟨?_, display, flattened, ?_⟩
  · unfold RenderOwner.rootSize at size ⊢
    rw [objects, root, size]
  · unfold RenderOwner.scene at shown ⊢
    rw [objects, root]
    exact shown

/-- Two trees that show the same objects are flattened to the same commands. -/
theorem FrameOf.agree {other : Layer.Tree} (frame : FrameOf owner tree)
    (also : FrameOf owner other) :
    tree.frameSize = other.frameSize ∧ ∃ display, tree.flatten = .ok display ∧
      other.flatten = .ok display := by
  obtain ⟨size, display, flattened, shown⟩ := frame
  obtain ⟨size', again, flattened', shown'⟩ := also
  have same := shown.unique shown'
  obtain ⟨commands, closed⟩ := display
  obtain ⟨others, closed'⟩ := again
  obtain rfl : others = commands := same
  exact ⟨size.trans size'.symm, _, flattened, flattened'⟩

theorem frame_of_layer (paintable : owner.Paintable) (size : tree.frameSize = owner.rootSize)
    (rooted : tree.root = some layer) (whole : LayerOf owner.rangedScene owner.root layer) :
    FrameOf owner tree := by
  obtain ⟨display, flattened, same⟩ := flatten_commands rooted whole.sized
  refine ⟨size, display, flattened, ?_⟩
  rw [same]
  exact shows_of_paintable paintable .root whole.shown

theorem layer_tree_ok {size : Size} (sized : 0 ≤ size.width ∧ 0 ≤ size.height) (layer : Layer) :
    ∃ tree, layerTree size (some layer) = .ok tree ∧ tree.root = some layer ∧
      tree.frameSize = size := by
  have checked : checkSize size = .ok () := by
    rw [check_size_eq, if_pos sized]
  unfold layerTree
  split
  · rename_i refused
    cases checked.symm.trans refused
  · rename_i none
    cases none
  · rename_i root
    cases root
    exact ⟨_, rfl, rfl, rfl⟩

/-- What a frame leaves: the objects as they were, flags that are only lowered, all that is
retained good, and each object painted once at most, with a boundary that needed it. -/
structure Composited (before after : Compositor) (tree : Layer.Tree) : Prop where
  good : after.Good
  objects : after.owner.objects = before.owner.objects
  root : after.owner.root = before.owner.root
  chunks : ∀ id, before.owner.paint.needsPaint id = false →
    after.boundaryChunks id = before.boundaryChunks id
  layers : ∀ id, before.owner.paint.flagged id = false →
    after.retainedLayer id = before.retainedLayer id
  counts : ∀ id, after.paintCount id = before.paintCount id ∨
    after.paintCount id = before.paintCount id + 1 ∧ before.Repaints after before.owner id
  last : after.lastLayerTree = tree
  frame : FrameOf after.owner tree
  issued : after.owner.nextId = before.owner.nextId
  laidOut : after.owner.dirtyLayout = before.owner.dirtyLayout
  idle : after.owner.paint.dirtyPaint = ∅ ∧ after.owner.paint.dirtyCompositing = ∅ ∧
    tree.root.isSome

/-- A frame composites, from wherever what is retained is good. -/
theorem composite_frame (good : compositor.Good) (paintable : compositor.owner.Paintable) :
    Completes RenderOwner.compositeFrame compositor fun tree next =>
      Composited compositor next tree := by
  have top := good.orderly.top
  obtain ⟨sound, rooted, above, current⟩ := good.orderly
  refine Completes.reading ?_
  by_cases idle : compositor.owner.paint.dirtyPaint = ∅ ∧
      compositor.owner.paint.dirtyCompositing = ∅ ∧ compositor.lastLayerTree.root.isSome
  · rw [if_pos idle]
    obtain ⟨unpainted, uncomposed, made⟩ := idle
    -- a root that is flagged would be scheduled
    have clean : compositor.owner.paint.needsPaint compositor.owner.root = false :=
      Bool.eq_false_iff.mpr fun flag => by
        have listed := good.retains.scheduled.needs flag
        rw [unpainted] at listed
        exact absurd listed (Finset.notMem_empty _)
    have quiet : compositor.owner.paint.flagged compositor.owner.root = false := by
      refine Bool.or_eq_false_iff.mpr ⟨clean, Bool.eq_false_iff.mpr fun flag => ?_⟩
      rcases good.retains.scheduled.composes flag with needs | listed
      · rw [clean] at needs
        cases needs
      · rw [uncomposed] at listed
        exact absurd listed (Finset.notMem_empty _)
    obtain ⟨layer, shown⟩ := Option.isSome_iff_exists.mp made
    obtain ⟨held, size⟩ := good.retains.last layer shown quiet
    obtain ⟨_, also, whole⟩ := good.retains.composed _ top quiet
    cases held.symm.trans also
    exact Completes.pure ⟨good, rfl, rfl, fun _ _ => rfl, fun _ _ => rfl, fun _ => .inl rfl, rfl,
      frame_of_layer paintable size shown whole, rfl, rfl, unpainted, uncomposed, made⟩
  · rw [if_neg idle]
    have composes : compositor.Composes compositor.owner := ⟨rfl, good.retains.toHolds⟩
    refine Completes.bind ((ensure_boundary sound paintable compositor.owner.nextId
      compositor.owner.root compositor (room_initially _ _) composes .root top).mono ?_)
    rintro _ middle ⟨⟨same, fresh, kept, recorded, composed⟩, advances, quiet⟩
    obtain ⟨layer, held, whole⟩ := composed _ top quiet
    obtain ⟨view, found, able⟩ := paintable _ .root
    have size : compositor.owner.rootSize = view.measure.size := by
      unfold RenderOwner.rootSize
      rw [found]
      rfl
    obtain ⟨tree, made, shown, framed⟩ := layer_tree_ok (size.symm ▸ able.sized) layer
    have resumed : ∀ last : Compositor, last.owner.rootSize = compositor.owner.rootSize →
        last.retainedLayer last.owner.root = some layer →
          layerTree last.owner.rootSize (last.retainedLayer last.owner.root) = .ok tree := by
      intro last sizes held
      rw [sizes, held]
      exact made
    refine Completes.changing (Completes.reading (Completes.resuming (resumed _ ?_ ?_)
      (Completes.changing (Completes.pure ?_))))
    · dsimp only
      rw [same]
      rfl
    · dsimp only
      rw [same]
      exact held
    · -- the owner has other flags, and is otherwise what it was
      have other : ({ middle with owner := { middle.owner with paint :=
          { middle.owner.paint with dirtyPaint := ∅, dirtyCompositing := ∅ } } } :
            Compositor).finishFrame tree = { middle with
              lastLayerTree := tree
              owner := { compositor.owner with
                paint := { middle.owner.paint with dirtyPaint := ∅, dirtyCompositing := ∅ }
                hasCompletedFrame := true } } := by
        unfold Compositor.finishFrame
        rw [same]
      have able : RenderOwner.Paintable { compositor.owner with
          paint := { middle.owner.paint with dirtyPaint := ∅, dirtyCompositing := ∅ }
          hasCompletedFrame := true } := by
        intro id painted
        refine paintable id (painted_of_same ?_ ?_ painted)
        · rfl
        · rfl
      rw [other]
      refine ⟨⟨⟨sound, rooted, above, current⟩, ⟨fresh, kept, recorded, composed⟩, ?_, ?_⟩, rfl,
        rfl, advances.chunks, advances.layers, advances.counts, rfl,
        frame_of_layer able framed shown whole, rfl, rfl, rfl, rfl, shown ▸ rfl⟩
      · have flags := Bool.or_eq_false_iff.mp quiet
        constructor
        · intro flag
          cases flags.1.symm.trans flag
        · intro flag
          cases flags.2.symm.trans flag
      · intro also same_ _
        cases shown.symm.trans same_
        exact ⟨held, framed⟩

/-- A frame after a layout that returned. -/
theorem layer_frame_completes (good : compositor.Good)
    (laid : layoutRender viewport compositor.owner = some (.ok (), owner))
    (paintable : owner.Paintable) :
    Completes (RenderOwner.layerFrame viewport) compositor fun tree next =>
      Composited { compositor with owner } next tree := by
  have good := layout_good viewport compositor.owner _ owner good laid
  have ran : onOwner (layoutRender viewport) compositor =
      some (.ok (), { compositor with owner }) := by
    unfold onOwner
    rw [laid]
    rfl
  exact Completes.bind ⟨(), _, ran, composite_frame good paintable⟩

/-- A layout of what is laid out returns at once. -/
theorem layout_idle {view : RenderObject} (rooted : owner.objects owner.root = some view)
    (issued : owner.root < owner.nextId) (clean : view.needsLayout = false)
    (under : view.constraints = some (.box viewport)) (empty : owner.dirtyLayout = ∅) :
    layoutRender viewport owner = some (.ok (), owner) := by
  obtain ⟨steps, next⟩ : ∃ steps, owner.nextId = steps + 1 :=
    Nat.exists_eq_succ_of_ne_zero (Nat.ne_of_gt (Nat.zero_lt_of_lt issued))
  have same : { owner with dirtyLayout := ∅ } = owner := by rw [← empty]
  have laid : layoutObject owner.nextId owner.root (.box viewport) owner =
      some (.ok (), owner) := by
    rw [next, layoutObject, Run.read_ends_iff, rooted]
    dsimp only
    rw [if_pos ⟨clean, under⟩]
    rfl
  rw [layoutRender, Run.read_ends_iff, Run.bind_ends_iff]
  refine .inl ⟨(), owner, laid, ?_⟩
  change some (Except.ok (), { owner with dirtyLayout := ∅ }) = _
  rw [same]

theorem layout_empties (laid : layoutRender viewport compositor.owner = some (.ok (), owner)) :
    owner.dirtyLayout = ∅ := by
  rw [layoutRender, Run.read_ends_iff, Run.bind_ends_iff] at laid
  rcases laid with ⟨_, middle, _, ended⟩ | ⟨failure, _, thrown⟩
  · cases ended
    rfl
  · cases thrown

/-- A frame follows at once on another in the same viewport. -/
theorem layer_frame_idle (idle : layoutRender viewport next.owner =
      some (.ok (), next.owner)) (last : next.lastLayerTree = tree) (made : tree.root.isSome)
    (clean : next.owner.paint.dirtyPaint = ∅ ∧ next.owner.paint.dirtyCompositing = ∅) :
    RenderOwner.layerFrame viewport next = some (.ok tree, next) := by
  have ran : onOwner (layoutRender viewport) next = some (.ok (), next) := by
    unfold onOwner
    rw [idle]
    rfl
  rw [RenderOwner.layerFrame, Run.bind_ends_iff]
  refine .inl ⟨(), next, ran, ?_⟩
  rw [RenderOwner.compositeFrame, Run.read_ends_iff, if_pos ⟨clean.1, clean.2, last ▸ made⟩, last]
  rfl

/-! Runs. -/

theorem initially_good : Compositor.initially.Good := by
  have needs : ∀ id, Compositor.initially.owner.paint.needsPaint id = true := fun _ => rfl
  have flagged : ∀ id, Compositor.initially.owner.paint.flagged id = true := fun _ => rfl
  refine ⟨initially_orderly, ⟨fun id _ => needs id, fun id _ clean => ?_, fun id _ clean => ?_,
    fun id _ quiet => ?_⟩, ⟨fun _ => ?_, fun _ => .inl (needs _)⟩, fun layer shown _ => ?_⟩
  · cases (needs id).symm.trans clean
  · cases (needs id).symm.trans clean
  · cases (flagged id).symm.trans quiet
  · exact Finset.mem_singleton_self 1
  · cases shown

/-- A frame leaves the objects as its layout does, and what is retained good, whether it
returns or its layout throws. -/
theorem frame_good (good : compositor.Good)
    (paintable : ∀ owner, layoutRender viewport compositor.owner = some (.ok (), owner) →
      owner.Paintable)
    (stepped : compositorStep compositor (.frame viewport) = some next) : next.Good ∧
      ∃ outcome owner, layoutRender viewport compositor.owner = some (outcome, owner) ∧
        next.owner.objects = owner.objects := by
  obtain ⟨⟨outcome, last⟩, ran, rfl⟩ := Option.map_eq_some_iff.mp stepped
  rw [RenderOwner.layerFrame, Run.bind_ends_iff] at ran
  rcases ran with ⟨value, middle, laid, composited⟩ | ⟨failure, laid, rfl⟩
  · obtain ⟨⟨caught, owner⟩, returned, same⟩ := Option.map_eq_some_iff.mp laid
    cases same
    have good := layout_good viewport compositor.owner _ owner good returned
    obtain ⟨tree, next, completed, result⟩ := composite_frame good (paintable owner returned)
    cases completed.symm.trans composited
    exact ⟨result.good, _, owner, returned, result.objects⟩
  · obtain ⟨⟨caught, owner⟩, returned, same⟩ := Option.map_eq_some_iff.mp laid
    cases same
    exact ⟨layout_good viewport compositor.owner _ owner good returned, _, owner, returned, rfl⟩

theorem compositor_reached_good (reached : Reaches compositorMachine FramesLaysAll compositor) :
    compositor.Good := by
  refine reached.invariant Compositor.Good ?_ ?_
  · rintro _ rfl
    exact initially_good
  · intro compositor action next good met stepped
    cases action with
    | change action =>
      obtain ⟨owner, changed, rfl⟩ := Option.map_eq_some_iff.mp stepped
      exact change_good good changed
    | frame viewport =>
      exact (frame_good good (fun _ laid => layout_paintable good.orderly laid met) stepped).1

end Frames

/-! A run with two frames. -/

/-- All objects, in the tree or not, lay out all their children. -/
def RenderOwner.allLayAll (owner : RenderOwner) : Bool :=
  (List.range owner.nextId).all fun id => (owner.objects id).all RenderObject.laysAll

section Runs
variable {compositor next : Compositor} {guard : Compositor → CompositorAction → Prop}

theorem lays_all (good : compositor.Good) (all : compositor.owner.allLayAll = true) :
    compositor.owner.LaysAll := by
  intro id object _ found
  have known := good.orderly.sound.among ((congrArg Option.isSome (tree_of_object found)).trans rfl)
  have lays := List.all_eq_true.mp all id known
  rwa [found] at lays

/-- Changes between frames. -/
theorem reaches_changes (free : ∀ compositor action, guard compositor (.change action))
    {actions : List RenderAction} (reached : Reaches compositorMachine guard compositor)
    (ran : compositorMachine.run compositor (actions.map .change) = some next) :
    Reaches compositorMachine guard next := by
  induction actions generalizing compositor with
  | nil =>
    cases ran
    exact reached
  | cons action rest ih =>
    obtain ⟨middle, stepped, ran⟩ := Option.bind_eq_some_iff.mp ran
    exact ih (reached.step (free compositor action) stepped) ran

end Runs

/-- A padding within a repaint boundary, over a text. -/
def boundedText : List RenderAction :=
  [.construct .repaintBoundary, .construct (.padding ⟨1, 1, 1, 1⟩), .construct (.text "a" false),
    .synchronize (some (.element (some 2) [.element (some 3) [.element (some 4) []]]))]

/-- A frame has been made, and then the text was changed. -/
theorem changed_text : ∃ compositor owner, Reaches compositorMachine FramesLaysAll compositor ∧
    compositor.owner.LaysAll ∧ layoutRender window compositor.owner = some (.ok (), owner) ∧
    owner.paint.needsPaint 2 = true ∧ compositor.paintCount 4 = 1 := by
  obtain ⟨built, ran, computed⟩ : ∃ built,
      compositorMachine.run .initially (boundedText.map .change) = some built ∧
        ((compositorMachine.step built (.frame window)).bind fun framed =>
          (compositorMachine.run framed ([RenderAction.configure 4 (.text "b")].map .change)).bind
            fun changed => (layoutRender window changed.owner).map fun (outcome, owner) =>
              (outcome.toOption, built.owner.allLayAll, changed.owner.allLayAll,
                owner.paint.needsPaint 2, changed.paintCount 4)) =
          some (some (), true, true, true, 1) :=
    Option.bind_eq_some_iff.mp (by decide +kernel)
  have free : ∀ compositor action, FramesLaysAll compositor (.change action) :=
    fun _ _ => trivial
  have reached : Reaches compositorMachine FramesLaysAll built :=
    reaches_changes free (.start rfl) ran
  obtain ⟨framed, stepped, computed⟩ := Option.bind_eq_some_iff.mp computed
  obtain ⟨changed, edited, computed⟩ := Option.bind_eq_some_iff.mp computed
  obtain ⟨⟨outcome, owner⟩, laid, computed⟩ := Option.map_eq_some_iff.mp computed
  simp only [Prod.mk.injEq] at computed
  obtain ⟨returned, first, second, needed, counted⟩ := computed
  cases outcome with
  | error failure => cases returned
  | ok value =>
    have met : FramesLaysAll built (.frame window) :=
      lays_all (compositor_reached_good reached) first
    have framing := reached.step met stepped
    have reached := reaches_changes free framing edited
    exact ⟨changed, owner, reached, lays_all (compositor_reached_good reached) second, laid,
      needed, counted⟩

/-! What frames show. -/

section Frames
variable {compositor next : Compositor} {owner : RenderOwner} {viewport : BoxConstraints}

section Reached
variable (reached : Reaches compositorMachine FramesLaysAll compositor)
  (all : compositor.owner.LaysAll)
  (laid : layoutRender viewport compositor.owner = some (.ok (), owner))
include reached all laid

/-- Once its layout has returned, a frame returns, and its tree shows the objects as they are
then, whatever has been retained of frames before. -/
theorem retained_frame_exact : ∃ tree next,
    RenderOwner.layerFrame viewport compositor = some (.ok tree, next) ∧
    next.owner.objects = owner.objects ∧ next.owner.root = owner.root ∧
      tree.frameSize = next.owner.rootSize ∧ ∃ display, tree.flatten = .ok display ∧
        Shows next.owner.scene next.owner.root display.commands := by
  have good := compositor_reached_good reached
  obtain ⟨tree, next, ran, result⟩ :=
    layer_frame_completes good laid (layout_paintable good.orderly laid all)
  exact ⟨tree, next, ran, result.objects, result.root, result.frame.size, result.frame.shown⟩

end Reached

/-- The frame after a text was changed. -/
theorem changed_text_shown : ∃ compositor tree next,
    Reaches compositorMachine FramesLaysAll compositor ∧
      RenderOwner.layerFrame window compositor = some (.ok tree, next) ∧ ∃ display,
        tree.flatten = .ok display ∧ Shows next.owner.scene next.owner.root display.commands := by
  obtain ⟨compositor, owner, reached, all, laid, _⟩ := changed_text
  obtain ⟨tree, next, ran, _, _, _, shown⟩ := retained_frame_exact reached all laid
  exact ⟨compositor, tree, next, reached, ran, shown⟩

/-- A compositor of these objects that retains nothing, and paints them all. -/
def Compositor.afresh (owner : RenderOwner) : Compositor where
  owner := { owner with paint := { dirtyPaint := {owner.root} } }
  lastLayerTree := { sized := no_frame_sized }

theorem afresh_good (orderly : owner.Orderly) : (Compositor.afresh owner).Good := by
  have needs : ∀ id, (Compositor.afresh owner).owner.paint.needsPaint id = true := fun _ => rfl
  have flagged : ∀ id, (Compositor.afresh owner).owner.paint.flagged id = true := fun _ => rfl
  refine ⟨⟨orderly.sound, orderly.root, orderly.above, orderly.current⟩,
    ⟨fun id _ => needs id, fun id _ clean => ?_, fun id _ clean => ?_, fun id _ quiet => ?_⟩,
    ⟨fun _ => ?_, fun _ => .inl (needs _)⟩, fun layer shown _ => ?_⟩
  · cases (needs id).symm.trans clean
  · cases (needs id).symm.trans clean
  · cases (flagged id).symm.trans quiet
  · exact Finset.mem_singleton_self owner.root
  · cases shown

/-- A frame composed from scratch shows the objects as well. -/
theorem scratch_frame (orderly : owner.Orderly) (paintable : owner.Paintable) :
    ∃ scratch last, RenderOwner.compositeFrame (Compositor.afresh owner) =
        some (.ok scratch, last) ∧ FrameOf owner scratch := by
  have able : (Compositor.afresh owner).owner.Paintable := by
    intro id painted
    refine paintable id (painted_of_same ?_ ?_ painted)
    · rfl
    · rfl
  obtain ⟨scratch, last, composed, result⟩ := composite_frame (afresh_good orderly) able
  exact ⟨scratch, last, composed, result.frame.same result.objects.symm result.root.symm⟩

section Reached
variable (reached : Reaches compositorMachine FramesLaysAll compositor)
  (all : compositor.owner.LaysAll)
  (laid : layoutRender viewport compositor.owner = some (.ok (), owner))
include reached all laid

/-- A frame that uses what is retained comes to the same display as one composed from scratch. -/
theorem retained_frame_from_scratch : ∃ tree next scratch last,
    RenderOwner.layerFrame viewport compositor = some (.ok tree, next) ∧
      RenderOwner.compositeFrame (Compositor.afresh owner) = some (.ok scratch, last) ∧
        tree.frameSize = scratch.frameSize ∧ tree.flatten = scratch.flatten := by
  have good := compositor_reached_good reached
  have paintable := layout_paintable good.orderly laid all
  obtain ⟨tree, next, ran, result⟩ := layer_frame_completes good laid paintable
  obtain ⟨scratch, last, composed, also⟩ :=
    scratch_frame (layout_ends good.orderly laid).1 paintable
  have frame : FrameOf owner tree := result.frame.same result.objects.symm result.root.symm
  obtain ⟨sizes, display, flattened, flattened'⟩ := frame.agree also
  exact ⟨tree, next, scratch, last, ran, composed, sizes, flattened.trans flattened'.symm⟩

end Reached

theorem changed_text_from_scratch : ∃ compositor owner tree next scratch last,
    Reaches compositorMachine FramesLaysAll compositor ∧
      RenderOwner.layerFrame window compositor = some (.ok tree, next) ∧
        RenderOwner.compositeFrame (Compositor.afresh owner) = some (.ok scratch, last) ∧
          tree.flatten = scratch.flatten := by
  obtain ⟨compositor, owner, reached, all, laid, _⟩ := changed_text
  obtain ⟨tree, next, scratch, last, ran, composed, _, same⟩ :=
    retained_frame_from_scratch reached all laid
  exact ⟨compositor, owner, tree, next, scratch, last, reached, ran, composed, same⟩

section Reached
variable (reached : Reaches compositorMachine FramesLaysAll compositor)
  (all : compositor.owner.LaysAll)
  (laid : layoutRender viewport compositor.owner = some (.ok (), owner))
include reached all laid

/-- A frame paints an object at most once, and only with the boundary that records it, which
needed paint and does not any more; boundaries that did not need it keep their chunks, and
those without any flag their layers. A second frame in the same viewport is the same one, and
changes nothing. -/
theorem retained_frame_minimal : ∃ tree next,
    RenderOwner.layerFrame viewport compositor = some (.ok tree, next) ∧
    (∀ id, next.paintCount id = compositor.paintCount id ∨
      next.paintCount id = compositor.paintCount id + 1 ∧ ∃ boundary,
        owner.isRepaintBoundary boundary = true ∧ owner.Hosted boundary id ∧
          owner.paint.needsPaint boundary = true ∧ next.owner.paint.needsPaint boundary = false) ∧
    (∀ id, owner.paint.needsPaint id = false →
      next.boundaryChunks id = compositor.boundaryChunks id) ∧
    (∀ id, owner.paint.flagged id = false → next.retainedLayer id = compositor.retainedLayer id) ∧
    RenderOwner.layerFrame viewport next = some (.ok tree, next) := by
  have good := compositor_reached_good reached
  obtain ⟨tree, next, ran, result⟩ :=
    layer_frame_completes good laid (layout_paintable good.orderly laid all)
  refine ⟨tree, next, ran, result.counts, result.chunks, result.layers, ?_⟩
  obtain ⟨orderly, _, _, _, view, rooted, clean, under⟩ := layout_ends good.orderly laid
  have known := (orderly.sound.issued _
    ((congrArg Option.isSome (tree_of_object rooted)).trans rfl)).2
  refine layer_frame_idle (layout_idle ?_ ?_ clean under ?_) result.last result.idle.2.2
    ⟨result.idle.1, result.idle.2.1⟩
  · rw [result.objects, result.root]
    exact rooted
  · rw [result.root, result.issued]
    exact known
  · exact result.laidOut.trans (layout_empties laid)

end Reached

theorem changed_text_painted : ∃ compositor tree next,
    Reaches compositorMachine FramesLaysAll compositor ∧ compositor.paintCount 4 = 1 ∧
      RenderOwner.layerFrame window compositor = some (.ok tree, next) ∧
        (next.paintCount 4 = 1 ∨ next.paintCount 4 = 2) ∧
          RenderOwner.layerFrame window next = some (.ok tree, next) := by
  obtain ⟨compositor, owner, reached, all, laid, _, counted⟩ := changed_text
  obtain ⟨tree, next, ran, counts, _, _, again⟩ := retained_frame_minimal reached all laid
  refine ⟨compositor, tree, next, reached, counted, ran, ?_, again⟩
  rcases counts 4 with same | ⟨more, _⟩
  · exact .inl (same.trans counted)
  · exact .inr (more.trans (congrArg (· + 1) counted))

end Frames

end Dui
