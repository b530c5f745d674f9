import Dui.DisplayList
import Dui.Nesting

/-! Flattening a layer tree keeps its picture: every command of its display lists,
moved by all the offsets above it, between the clips of the layers above it. -/
namespace Dui
open Nesting

namespace DisplayCommand

def pushes : DisplayCommand → Bool
  | pushClipRect _ => true
  | _ => false

def pops : DisplayCommand → Bool
  | popClip => true
  | _ => false

/-- The command moved by an offset. -/
def translate (offset : Offset) : DisplayCommand → DisplayCommand
  | drawText text origin => drawText text (origin + offset)
  | drawRect rect color => drawRect { rect with origin := rect.origin + offset } color
  | drawImage asset destination =>
    drawImage asset { destination with origin := destination.origin + offset }
  | pushClipRect rect => pushClipRect { rect with origin := rect.origin + offset }
  | popClip => popClip

/-- A clip has no negative size. -/
def sized : DisplayCommand → Bool
  | pushClipRect rect => 0 ≤ rect.size.width && 0 ≤ rect.size.height
  | _ => true

end DisplayCommand

theorem translate_pushes (offset : Offset) :
    DisplayCommand.pushes ∘ DisplayCommand.translate offset = DisplayCommand.pushes := by
  funext command
  cases command <;> rfl

theorem translate_pops (offset : Offset) :
    DisplayCommand.pops ∘ DisplayCommand.translate offset = DisplayCommand.pops := by
  funext command
  cases command <;> rfl

/-- The clips of the commands are balanced. -/
abbrev ClipBalanced (commands : List DisplayCommand) : Prop :=
  Balanced DisplayCommand.pushes DisplayCommand.pops commands

/-- The sum of offsets. -/
def totalOffset (offsets : List Offset) : Offset :=
  ⟨(offsets.map Offset.x).sum, (offsets.map Offset.y).sum⟩

namespace Layer

mutual

/-- The commands under a layer in paint order, the layer's own clips around them, each
with the offsets of the layers above it. -/
def painted : Layer → List Offset → List (List Offset × DisplayCommand)
  | container children, ancestors => paintedAll children ancestors
  | offset moved child, ancestors => child.painted (ancestors ++ [moved])
  | clipRect rect _ child, ancestors =>
    (ancestors, .pushClipRect rect) :: child.painted ancestors ++ [(ancestors, .popClip)]
  | displayList display, ancestors => display.commands.map (ancestors, ·)

def paintedAll : List Layer → List Offset → List (List Offset × DisplayCommand)
  | [], _ => []
  | child :: rest, ancestors => child.painted ancestors ++ paintedAll rest ancestors

end

mutual

/-- The display lists of a layer's leaves. -/
def displayLists : Layer → List DisplayList
  | container children => displayListsAll children
  | offset _ child => child.displayLists
  | clipRect _ _ child => child.displayLists
  | displayList display => [display]

def displayListsAll : List Layer → List DisplayList
  | [] => []
  | child :: rest => child.displayLists ++ displayListsAll rest

end

/-- Every command is moved by the sum of the offsets above it. -/
def placed (painted : List (List Offset × DisplayCommand)) : List DisplayCommand :=
  painted.map fun (offsets, command) => command.translate (totalOffset offsets)

namespace Tree

/-- The picture of the root. -/
def picture (tree : Tree) : List DisplayCommand :=
  match tree.root with
  | some root => placed (root.painted [])
  | none => []

/-- No display list of the tree pushes a clip of negative size. -/
def clipsSized (tree : Tree) : Bool :=
  tree.root.all fun root =>
    root.displayLists.all fun display => display.commands.all DisplayCommand.sized

end Tree

end Layer

section Commands
variable {depth : ℕ} {commands : List DisplayCommand} {offset : Offset}
  {builder : DisplayListBuilder}

/-- The constructor's loop asks for balanced clips and nothing else. -/
theorem check_clips_iff : checkClips depth commands = .ok () ↔
    ClosesFrom DisplayCommand.pushes DisplayCommand.pops depth commands := by
  induction commands generalizing depth with
  | nil =>
    rw [closes_from_nil, checkClips]
    split <;> simp_all
  | cons command rest ih =>
    rw [closes_from_cons]
    cases command with
    | popClip =>
      rw [checkClips, ← ih]
      split
      · simp_all [DisplayCommand.pops, DisplayCommand.pushes]
      · simp [DisplayCommand.pops, DisplayCommand.pushes]
        omega
    | pushClipRect rect =>
      change checkClips (depth + 1) rest = _ ↔ _
      rw [ih]
      simp [DisplayCommand.pops, DisplayCommand.pushes]
    | drawText | drawRect | drawImage =>
      change checkClips depth rest = _ ↔ _
      rw [ih]
      simp [DisplayCommand.pops, DisplayCommand.pushes]

theorem create_accepts_iff :
    (∃ display, DisplayList.create commands = .ok display ∧ display.commands = commands) ↔
      ClipBalanced commands := by
  change _ ↔ ClosesFrom _ _ 0 _
  rw [← check_clips_iff]
  unfold DisplayList.create
  split
  · rename_i closed
    exact ⟨fun _ => closed, fun _ => ⟨_, rfl, rfl⟩⟩
  · rename_i failed
    simp [failed]

/-- What a size that is negative throws. -/
def negativeSize : Failure := .invalidArgument "A constrained Size must be finite and non-negative"

theorem check_size_eq (size : Size) : checkSize size =
    if 0 ≤ size.width ∧ 0 ≤ size.height then .ok () else .error negativeSize := by
  unfold checkSize BoxConstraints.constrain
  by_cases sized : 0 ≤ size.width ∧ 0 ≤ size.height
  · rw [if_pos sized, if_neg (by rw [not_or, not_lt, not_lt]; exact sized)]
    rfl
  · rw [if_neg sized, if_pos (by rw [← not_le, ← not_le]; exact not_and_or.mp sized)]
    rfl

/-- A rectangle that a clip layer holds is pushed wherever it is moved. -/
theorem push_clip_rect_sized {rect : Rect} (sized : checkSize rect.size = .ok ())
    (origin : Offset) : builder.pushClipRect { rect with origin } = .ok {
      commands := builder.commands ++ [.pushClipRect { rect with origin }]
      clipDepth := builder.clipDepth + 1 } := by
  unfold DisplayListBuilder.pushClipRect
  rw [sized]
  rfl

/-- A command that pops no empty stack is appended translated, unless it is a clip of
negative size. -/
theorem append_command {command : DisplayCommand}
    (allowed : command.pops.toNat ≤ builder.clipDepth + command.pushes.toNat) :
    builder.append offset command =
      if command.sized then .ok {
        commands := builder.commands ++ [command.translate offset]
        clipDepth := builder.clipDepth + command.pushes.toNat - command.pops.toNat }
      else .error negativeSize := by
  cases command with
  | drawText | drawRect | drawImage => rfl
  | pushClipRect rect =>
    simp only [DisplayListBuilder.append, DisplayListBuilder.pushClipRect, check_size_eq,
      DisplayCommand.sized, Bool.and_eq_true, decide_eq_true_eq]
    split <;> rfl
  | popClip =>
    have some : builder.clipDepth ≠ 0 := by
      simp [DisplayCommand.pops, DisplayCommand.pushes] at allowed
      omega
    simp only [DisplayListBuilder.append, DisplayListBuilder.popClip, if_neg some]
    rfl

/-- A closed list is appended translated, unless one of its clips has a negative size. -/
theorem append_commands (closed :
    ClosesFrom DisplayCommand.pushes DisplayCommand.pops depth commands) :
    ∀ builder : DisplayListBuilder, depth ≤ builder.clipDepth →
    commands.foldlM (DisplayListBuilder.append offset) builder =
      if commands.all DisplayCommand.sized then .ok {
        commands := builder.commands ++ commands.map (DisplayCommand.translate offset)
        clipDepth := builder.clipDepth - depth }
      else .error negativeSize := by
  induction commands generalizing depth with
  | nil =>
    intro builder enough
    obtain rfl := closes_from_nil.mp closed
    simp [pure, Except.pure]
  | cons command rest ih =>
    intro builder enough
    obtain ⟨first, closed⟩ := closes_from_cons.mp closed
    rw [List.foldlM_cons, append_command (by omega)]
    cases sized : command.sized with
    | false => simp [sized, bind, Except.bind]
    | true =>
      rw [if_pos rfl]
      simp only [bind, Except.bind]
      rw [ih closed _ (by dsimp only; omega)]
      simp only [List.all_cons, sized, Bool.true_and, List.append_assoc, List.map_cons,
        List.singleton_append]
      congr 3
      omega

end Commands

theorem total_offset_append (ancestors : List Offset) (last : Offset) :
    totalOffset (ancestors ++ [last]) = totalOffset ancestors + last := by
  change _ = (⟨(ancestors.map Offset.x).sum + last.x, (ancestors.map Offset.y).sum + last.y⟩ :
    Offset)
  simp [totalOffset]

namespace Layer
variable {builder : DisplayListBuilder} {ancestors : List Offset}

/-- What flattening a subtree comes to: its picture, or the refusal of a clip. -/
def flattened (builder : DisplayListBuilder) (displays : List DisplayList)
    (commands : List DisplayCommand) : Except Failure DisplayListBuilder :=
  if displays.all fun display => display.commands.all DisplayCommand.sized then
    .ok { builder with commands := builder.commands ++ commands }
  else .error negativeSize

theorem placed_append (painted rest : List (List Offset × DisplayCommand)) :
    placed (painted ++ rest) = placed painted ++ placed rest :=
  List.map_append

/-- One subtree after another. -/
theorem flattened_bind (displays rest : List DisplayList) (commands later : List DisplayCommand) :
    (flattened builder displays commands >>= fun next => flattened next rest later) =
      flattened builder (displays ++ rest) (commands ++ later) := by
  unfold flattened
  rw [List.all_append]
  split
  · rename_i sized
    simp only [bind, Except.bind, sized, Bool.true_and, List.append_assoc]
  · rename_i oversized
    simp [bind, Except.bind, oversized]

mutual

/-- Flattening a subtree appends its picture; nothing else of the builder changes. -/
theorem append_layer_eq : ∀ (layer : Layer) (builder : DisplayListBuilder)
    (ancestors : List Offset), appendLayer layer builder (totalOffset ancestors) =
      flattened builder layer.displayLists (placed (layer.painted ancestors))
  | container children, builder, ancestors => append_all_eq children builder ancestors
  | offset moved child, builder, ancestors => by
    rw [appendLayer, ← total_offset_append, append_layer_eq child]
    rfl
  | clipRect rect sized child, builder, ancestors => by
    rw [appendLayer, push_clip_rect_sized sized]
    simp only [bind, Except.bind]
    rw [append_layer_eq child]
    unfold flattened
    rw [displayLists]
    cases child.displayLists.all fun display => display.commands.all DisplayCommand.sized with
    | false => rfl
    | true => simp [DisplayListBuilder.popClip, placed, painted, DisplayCommand.translate]
  | displayList display, builder, ancestors => by
    have closed := check_clips_iff.mp display.closed
    rw [appendLayer, append_commands closed _ (Nat.zero_le _)]
    simp [flattened, displayLists, placed, painted]
    rfl

theorem append_all_eq : ∀ (layers : List Layer) (builder : DisplayListBuilder)
    (ancestors : List Offset), appendLayer.appendAll layers builder (totalOffset ancestors) =
      flattened builder (displayListsAll layers) (placed (paintedAll layers ancestors))
  | [], builder, ancestors => by
    simp [appendLayer.appendAll, flattened, displayListsAll, placed, paintedAll]
  | child :: rest, builder, ancestors => by
    rw [appendLayer.appendAll, append_layer_eq child]
    simp only [append_all_eq rest]
    rw [flattened_bind, ← placed_append]
    rfl

end

mutual

/-- The clips of a subtree are closed within it. -/
theorem painted_balanced : ∀ (layer : Layer) (ancestors : List Offset),
    ClipBalanced (placed (layer.painted ancestors))
  | container children, ancestors => painted_all_balanced children ancestors
  | offset moved child, ancestors => painted_balanced child (ancestors ++ [moved])
  | clipRect rect sized child, ancestors => by
    have inner := painted_balanced child ancestors
    have whole : placed ((clipRect rect sized child).painted ancestors) =
        .pushClipRect { rect with origin := rect.origin + totalOffset ancestors } ::
          placed (child.painted ancestors) ++ [.popClip] := by
      simp [placed, painted, DisplayCommand.translate]
    rw [whole]
    exact inner.wrap rfl rfl rfl rfl
  | displayList display, ancestors => by
    have image : placed ((displayList display).painted ancestors) =
        display.commands.map (DisplayCommand.translate (totalOffset ancestors)) := by
      rw [placed, painted, List.map_map]
      rfl
    rw [image]
    apply closes_from_map.mpr
    rw [translate_pushes, translate_pops]
    exact check_clips_iff.mp display.closed

theorem painted_all_balanced : ∀ (layers : List Layer) (ancestors : List Offset),
    ClipBalanced (placed (paintedAll layers ancestors))
  | [], _ => closes_from_nil.mpr rfl
  | child :: rest, ancestors => by
    rw [paintedAll, placed_append]
    exact (painted_balanced child ancestors).append (painted_all_balanced rest ancestors)

end

theorem Tree.picture_balanced (tree : Tree) : ClipBalanced tree.picture := by
  unfold Tree.picture
  cases tree.root with
  | none => exact closes_from_nil.mpr rfl
  | some root => exact root.painted_balanced []

end Layer

/-- Flattening yields the picture of the tree unless a display list pushes a clip of
negative size, which it refuses; every subtree closes its own clips, and the display
list constructor asks for nothing but that. -/
theorem flatten_faithful (tree : Layer.Tree) :
    tree.flatten.map DisplayList.commands =
      (if tree.clipsSized then .ok tree.picture else .error negativeSize) ∧
    ClipBalanced tree.picture ∧
    (∀ (layer : Layer) (ancestors : List Offset),
      ClipBalanced (Layer.placed (layer.painted ancestors))) ∧
    ∀ commands : List DisplayCommand,
      (∃ display, DisplayList.create commands = .ok display ∧ display.commands = commands) ↔
        ClipBalanced commands := by
  refine ⟨?_, tree.picture_balanced, Layer.painted_balanced, fun _ => create_accepts_iff⟩
  obtain ⟨display, created, same⟩ := create_accepts_iff.mpr tree.picture_balanced
  have appended : tree.appended =
      if tree.clipsSized then .ok { commands := tree.picture } else .error negativeSize := by
    unfold Layer.Tree.appended Layer.Tree.clipsSized Layer.Tree.picture
    cases tree.root with
    | none => rfl
    | some root =>
      exact (root.append_layer_eq {} []).trans (by simp [Layer.flattened])
  unfold Layer.Tree.flatten
  rw [appended]
  cases tree.clipsSized with
  | false => rfl
  | true =>
    have built : DisplayListBuilder.build { commands := tree.picture } = .ok display := by
      rw [DisplayListBuilder.build, if_neg (not_not.mpr rfl), created]
    simp [bind, Except.bind, built, Except.map, same]

/-- A display list may hold a clip of negative size, and then its tree is refused. -/
theorem negative_clip_refused : ∃ display tree,
    DisplayList.create [.pushClipRect ⟨{}, ⟨-1, 1⟩⟩, .popClip] = .ok display ∧
      layerTree {} (some (.displayList display)) = .ok tree ∧
      tree.flatten.map DisplayList.commands = .error negativeSize :=
  ⟨_, _, rfl, rfl, rfl⟩

end Dui
