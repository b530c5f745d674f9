import Dui.RetainedFrames

/-! What is retained against a full repaint. A frame shows what one that is recorded and
composed from scratch shows, as long as no fixed-extent list is painted that layout leaves
out. A list keeps more of its last layout than what it measures, and nothing is marked when
only that becomes another. -/
namespace Dui
open Effect ForestEdit Transition

section Painting
variable {owner next : RenderOwner} {viewport : BoxConstraints} {id : RenderId}
  {object : RenderObject}

theorem painted_found (orderly : owner.Orderly) (painted : owner.Painted id) :
    ∃ object, owner.objects id = some object := by
  cases painted with
  | root =>
    obtain ⟨view, rooted, _⟩ := orderly.root
    exact ⟨view, rooted⟩
  | child _ found listed =>
    have among := List.mem_of_mem_take (List.mem_of_mem_drop listed)
    have named := (orderly.sound.linked (tree_of_object found) id).mp among
    obtain ⟨object, there, _⟩ := parent_of_objects.mpr named
    exact ⟨object, there⟩

/-- Layout makes no list of an object, nor anything else of a list. -/
theorem list_of_tree (tree : next.tree = owner.tree) (found : next.objects id = some object)
    {list : FixedExtentList} (kind : object.kind = .fixedExtentList list) :
    ∃ before list, owner.objects id = some before ∧ before.kind = .fixedExtentList list := by
  have held := tree_of_object found
  rw [tree] at held
  obtain ⟨before, there, same⟩ := object_of_tree held
  have kinds := congrArg RenderObject.kind same
  rw [unlaid_kind, unlaid_kind, kind] at kinds
  cases listed : before.kind with
  | fixedExtentList list => exact ⟨before, list, there, listed⟩
  | _ =>
    rw [listed] at kinds
    cases kinds

/-- All that is painted after a layout can be, if no list was left out. -/
theorem layout_lists_paintable (orderly : owner.Orderly) (sized : owner.Sized)
    (lists : owner.LaysLists) (laid : layoutRender viewport owner = some (.ok (), next)) :
    next.Paintable := by
  obtain ⟨after, tree, _⟩ := layout_ends orderly laid
  intro id painted
  obtain ⟨object, found⟩ := painted_found after painted
  refine ⟨object, found, ?_⟩
  by_cases listed : ∃ list, object.kind = .fixedExtentList list
  · obtain ⟨list, kind⟩ := listed
    obtain ⟨before, list, there, kind⟩ := list_of_tree tree found kind
    obtain ⟨_, again, clean⟩ := painted_clean orderly laid painted
      fun parent above child below held left under =>
        lists parent above child below held left id before list under there kind
    cases found.symm.trans again
    exact current_paintable (after.current id object found clean)
  · exact plain_paintable (not_exists.mp listed)
      (layout_sized viewport owner _ next sized laid id object found)

end Painting

section Frames
variable {compositor next : Compositor} {viewport : BoxConstraints} {tree : Layer.Tree}

/-- Every run keeps what is retained good, and no size is negative. -/
theorem lists_reached_good (reached : Reaches compositorMachine FramesLayLists compositor) :
    compositor.Good ∧ compositor.owner.Sized := by
  refine reached.invariant (fun compositor => compositor.Good ∧ compositor.owner.Sized) ?_ ?_
  · rintro _ rfl
    exact ⟨initially_good, initially_sized⟩
  · rintro compositor action next ⟨good, sized⟩ met stepped
    cases action with
    | change action =>
      obtain ⟨owner, changed, rfl⟩ := Option.map_eq_some_iff.mp stepped
      exact ⟨change_good good changed, step_sized sized changed⟩
    | frame viewport =>
      obtain ⟨framed, outcome, owner, laid, objects⟩ := frame_good good
        (fun _ laid => layout_lists_paintable good.orderly sized met laid) stepped
      refine ⟨framed, ?_⟩
      unfold RenderOwner.Sized
      rw [objects]
      exact layout_sized viewport _ outcome owner sized laid

/-- In every run, a frame that returns shows what the objects are recorded and composed to
from scratch, with nothing retained and every flag set, if no frame leaves out a list. -/
theorem composited_as_repainted (reached : Reaches compositorMachine FramesLayLists compositor)
    (lists : compositor.owner.LaysLists)
    (framed : RenderOwner.layerFrame viewport compositor = some (.ok tree, next)) :
    ∃ scratch last display,
      RenderOwner.compositeFrame (Compositor.afresh next.owner) = some (.ok scratch, last) ∧
        tree.frameSize = scratch.frameSize ∧
          tree.flatten = .ok display ∧ scratch.flatten = .ok display := by
  obtain ⟨good, sized⟩ := lists_reached_good reached
  have began := framed
  rw [RenderOwner.layerFrame, Run.bind_ends_iff] at began
  rcases began with ⟨_, middle, went, _⟩ | ⟨_, _, thrown⟩
  · obtain ⟨⟨caught, owner⟩, laid, same⟩ := Option.map_eq_some_iff.mp went
    cases same
    have paintable := layout_lists_paintable good.orderly sized lists laid
    obtain ⟨_, _, ran, result⟩ := layer_frame_completes good laid paintable
    cases ran.symm.trans framed
    have able : next.owner.Paintable := fun id painted => by
      rw [result.objects]
      exact paintable id (painted_of_same result.objects result.root painted)
    obtain ⟨scratch, last, composed, also⟩ := scratch_frame result.good.orderly able
    obtain ⟨sizes, display, flattened, flattened'⟩ := result.frame.agree also
    exact ⟨scratch, last, display, composed, sizes, flattened, flattened'⟩
  · cases thrown

end Frames

/-! Two runs with a list. -/

/-- Every child that is left out has no children, and is no list. -/
def RenderOwner.leavesOutLeaves (owner : RenderOwner) : Bool :=
  (List.range owner.nextId).all fun id => (owner.objects id).all fun object =>
    object.surplus.all fun child => (owner.objects child).all fun left =>
      left.children.isEmpty && match left.kind with
        | .fixedExtentList _ => false
        | _ => true

theorem lays_lists {owner : RenderOwner} (sound : RenderTree.Sound owner.tree owner.nextId)
    (leaves : owner.leavesOutLeaves = true) : owner.LaysLists := by
  intro parent above child _ held left id object list below found kind
  have known := sound.among ((congrArg Option.isSome (tree_of_object held)).trans rfl)
  have each := List.all_eq_true.mp leaves parent known
  rw [held, Option.all_some] at each
  have here := List.all_eq_true.mp each child left
  rcases Relation.ReflTransGen.cases_tail below with rfl | ⟨inner, _, named⟩
  · rw [found, Option.all_some, kind, Bool.and_false] at here
    cases here
  · obtain ⟨before, there⟩ := Option.isSome_iff_exists.mp
      (sound.forest.parent_present inner child named)
    obtain ⟨outer, there, _⟩ := object_of_tree there
    rw [there, Option.all_some, Bool.and_eq_true] at here
    have among := (sound.linked (tree_of_object there) inner).mpr named
    rw [unlaid_children, List.isEmpty_iff.mp here.1] at among
    cases among

/-- A padding over a boundary with a viewport, which is scrolled to the second of two texts in
a lazy list, of which only that one is mounted; and another text. -/
def scrolledList : List RenderAction :=
  [.construct (.padding ⟨0, 0, 0, 0⟩), .construct .repaintBoundary, .construct (.viewport 15),
    .construct (.fixedExtentList 15), .construct (.text "a" false), .construct (.text "b" false),
    .construct (.text "c" false), .configure 5 (.lazyModel 2 1),
    .configure 5 (.mountedRange 1 1 1), .setChildren 5 [some 7], .setChildren 4 [some 5],
    .setChildren 3 [some 4], .setChildren 2 [some 3], .setChildren 1 [some 2]]

/-- The list keeps the first text in its cache as well, so both are mounted. -/
def remounted : List RenderAction :=
  [.configure 5 (.cacheExtent 15), .configure 5 (.mountedRange 0 2 1),
    .setChildren 5 [some 6, some 7]]

/-- The commands of a frame that returned. -/
def commandsOf (outcome : Except Failure Layer.Tree) : Option (List DisplayCommand) :=
  outcome.toOption.bind fun tree => tree.flatten.toOption.map (·.commands)

/-- The list is remounted while the padding, whose first child it is in, lays it out. -/
theorem composited_as_repainted_remounted : ∃ compositor tree next scratch last display,
    Reaches compositorMachine FramesLayLists compositor ∧ compositor.paintCount 7 = 1 ∧
      RenderOwner.layerFrame window compositor = some (.ok tree, next) ∧
      RenderOwner.compositeFrame (Compositor.afresh next.owner) = some (.ok scratch, last) ∧
        tree.flatten = .ok display ∧ scratch.flatten = .ok display := by
  obtain ⟨built, ran, computed⟩ : ∃ built, compositorMachine.run .initially
      ((scrolledList ++ [RenderAction.setChildren 2 [some 3, some 8]]).map .change) = some built ∧
        ((compositorMachine.step built (.frame window)).bind fun framed =>
          (compositorMachine.run framed (remounted.map .change)).bind fun changed =>
            (RenderOwner.layerFrame window changed).map fun (outcome, _) =>
              (outcome.toOption.isSome, built.owner.leavesOutLeaves,
                changed.owner.leavesOutLeaves, changed.paintCount 7)) =
          some (true, true, true, 1) :=
    Option.bind_eq_some_iff.mp (by decide +kernel)
  obtain ⟨framed, stepped, computed⟩ := Option.bind_eq_some_iff.mp computed
  obtain ⟨changed, edited, computed⟩ := Option.bind_eq_some_iff.mp computed
  obtain ⟨⟨outcome, next⟩, shown, computed⟩ := Option.map_eq_some_iff.mp computed
  simp only [Prod.mk.injEq] at computed
  obtain ⟨returned, first, second, counted⟩ := computed
  have free : ∀ compositor action, FramesLayLists compositor (.change action) :=
    fun _ _ => trivial
  have reached : Reaches compositorMachine FramesLayLists built :=
    reaches_changes free (.start rfl) ran
  have met : FramesLayLists built (.frame window) :=
    lays_lists (lists_reached_good reached).1.orderly.sound first
  have reached := reaches_changes free (reached.step met stepped) edited
  cases outcome with
  | error failure => cases returned
  | ok tree =>
    obtain ⟨scratch, last, display, composed, _, flattened, flattened'⟩ :=
      composited_as_repainted reached
        (lays_lists (lists_reached_good reached).1.orderly.sound second) shown
    exact ⟨changed, tree, next, scratch, last, display, reached, counted, shown, composed,
      flattened, flattened'⟩

/-- Frames return. -/
def FramesReturn (compositor : Compositor) : CompositorAction → Prop
  | .frame viewport => ∃ tree next, RenderOwner.layerFrame viewport compositor =
      some (.ok tree, next)
  | .change _ => True

theorem frame_returned {compositor next : Compositor} {viewport : BoxConstraints}
    {outcome : Except Failure Layer.Tree}
    (reached : Reaches compositorMachine FramesReturn compositor)
    (framed : RenderOwner.layerFrame viewport compositor = some (outcome, next))
    (returned : outcome.toOption.isSome = true) : Reaches compositorMachine FramesReturn next := by
  cases outcome with
  | error failure => cases returned
  | ok tree =>
    have met : FramesReturn compositor (.frame viewport) := ⟨tree, next, framed⟩
    have stepped : compositorMachine.step compositor (.frame viewport) = some next := by
      change (RenderOwner.layerFrame viewport compositor).map Prod.snd = some next
      rw [framed]
      rfl
    exact reached.step met stepped

/-- The list is remounted while the padding leaves it out, and then laid out again. What was
painted in between is what the boundary keeps: the first text, where the second one is. -/
theorem left_out_list_stale : ¬∀ (compositor next : Compositor) (viewport : BoxConstraints)
    (tree : Layer.Tree), Reaches compositorMachine FramesReturn compositor →
    RenderOwner.layerFrame viewport compositor = some (.ok tree, next) →
    ∃ scratch last display,
      RenderOwner.compositeFrame (Compositor.afresh next.owner) = some (.ok scratch, last) ∧
        tree.flatten = .ok display ∧ scratch.flatten = .ok display := by
  intro always
  obtain ⟨built, ran, computed⟩ : ∃ built,
      compositorMachine.run .initially (scrolledList.map .change) = some built ∧
        ((RenderOwner.layerFrame window built).bind fun (first, framed) =>
          (compositorMachine.run framed ((RenderAction.setChildren 2 [some 8, some 3] ::
            remounted).map .change)).bind fun aside =>
          (RenderOwner.layerFrame window aside).bind fun (second, reframed) =>
          (compositorMachine.run reframed
            ([RenderAction.setChildren 2 [some 3]].map .change)).bind fun restored =>
          (RenderOwner.layerFrame window restored).bind fun (third, last) =>
          (RenderOwner.compositeFrame (Compositor.afresh last.owner)).map fun (scratch, _) =>
            (first.toOption.isSome, second.toOption.isSome, third.toOption.isSome,
              decide (commandsOf third = commandsOf scratch))) =
          some (true, true, true, false) :=
    Option.bind_eq_some_iff.mp (by decide +kernel)
  obtain ⟨⟨first, framed⟩, began, computed⟩ := Option.bind_eq_some_iff.mp computed
  obtain ⟨aside, edited, computed⟩ := Option.bind_eq_some_iff.mp computed
  obtain ⟨⟨second, reframed⟩, went, computed⟩ := Option.bind_eq_some_iff.mp computed
  obtain ⟨restored, again, computed⟩ := Option.bind_eq_some_iff.mp computed
  obtain ⟨⟨third, last⟩, shown, computed⟩ := Option.bind_eq_some_iff.mp computed
  obtain ⟨⟨scratch, ended⟩, composed, computed⟩ := Option.map_eq_some_iff.mp computed
  simp only [Prod.mk.injEq, decide_eq_false_iff_not] at computed
  obtain ⟨first_returned, second_returned, third_returned, different⟩ := computed
  have free : ∀ compositor action, FramesReturn compositor (.change action) :=
    fun _ _ => trivial
  have reached : Reaches compositorMachine FramesReturn built :=
    reaches_changes free (.start rfl) ran
  have reached := reaches_changes free (frame_returned reached began first_returned) edited
  have reached := reaches_changes free (frame_returned reached went second_returned) again
  obtain ⟨tree, rfl⟩ : ∃ tree, third = .ok tree := by
    cases third with
    | ok tree => exact ⟨tree, rfl⟩
    | error failure => cases third_returned
  obtain ⟨_, _, display, also, flattened, flattened'⟩ :=
    always restored last window tree reached shown
  cases composed.symm.trans also
  refine different ?_
  unfold commandsOf
  change (tree.flatten.toOption.map _) = (_ : Option (List DisplayCommand))
  rw [flattened]
  exact (congrArg (fun flat : Except Failure DisplayList => flat.toOption.map (·.commands))
    flattened').symm

end Dui
