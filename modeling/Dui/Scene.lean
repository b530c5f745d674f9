import Dui.LayerFlattening

/-! Scenes: what painting sees of a tree of objects. A scene is painted depth first, every
object before its children and within its clip. The same commands come from recording each
repaint boundary apart, with a slot for every boundary below, and filling the slots. -/
namespace Dui

/-! Moving what is painted. -/

section Moving
variable (one another third : Offset)

theorem zero_add_offset : {} + one = one := by
  obtain ⟨x, y⟩ := one
  exact congrArg₂ Offset.mk (zero_add x) (zero_add y)

theorem add_zero_offset : one + {} = one := by
  obtain ⟨x, y⟩ := one
  exact congrArg₂ Offset.mk (add_zero x) (add_zero y)

theorem add_offset_assoc : one + another + third = one + (another + third) :=
  congrArg₂ Offset.mk (add_assoc _ _ _) (add_assoc _ _ _)

theorem add_offset_right_comm : one + another + third = one + third + another :=
  congrArg₂ Offset.mk (add_right_comm _ _ _) (add_right_comm _ _ _)

/-- Moving twice is moving by both offsets. -/
theorem translate_translate (command : DisplayCommand) :
    (command.translate one).translate another = command.translate (one + another) := by
  cases command with
  | popClip => rfl
  | _ => simp only [DisplayCommand.translate, add_offset_assoc]

theorem translate_zero (command : DisplayCommand) : command.translate {} = command := by
  cases command with
  | popClip => rfl
  | _ => simp only [DisplayCommand.translate, add_zero_offset]

theorem map_translate_zero (commands : List DisplayCommand) :
    commands.map (DisplayCommand.translate {}) = commands := by
  rw [funext translate_zero, List.map_id']

end Moving

/-- What painting sees of an object: whether it is recorded apart, how it clips, what it draws
itself where it lies at the origin, and the children painted after that. -/
structure Look where
  boundary : Bool
  clips : Bool
  size : Size
  drawn : List DisplayCommand
  children : List Nat
  deriving DecidableEq

/-- An object of a scene, with its offset within its parent. -/
structure SceneNode where
  look : Look
  offset : Offset
  deriving DecidableEq

abbrev Scene := Nat → Option SceneNode

/-- What an object paints at an offset, given what its children paint. -/
def Look.enclose {β : Type} (look : Look) (wrap : DisplayCommand → β) (offset : Offset)
    (below : List β) : List β :=
  let own := look.drawn.map fun command => wrap (command.translate offset)
  if look.clips then
    wrap (.pushClipRect ⟨offset, look.size⟩) :: (own ++ below) ++ [wrap .popClip]
  else own ++ below

/-- Painting some siblings, the offset of whose parent is given. -/
inductive Paints (scene : Scene) : List Nat → Offset → List DisplayCommand → Prop where
  | none {offset : Offset} : Paints scene [] offset []
  | child {key : Nat} {rest : List Nat} {offset : Offset} {node : SceneNode}
      {below after : List DisplayCommand} (found : scene key = some node)
      (inside : Paints scene node.look.children (offset + node.offset) below)
      (later : Paints scene rest offset after) :
      Paints scene (key :: rest) offset
        (node.look.enclose id (offset + node.offset) below ++ after)

/-- The picture of an object that lies at the origin. -/
def Shows (scene : Scene) (key : Nat) (commands : List DisplayCommand) : Prop :=
  ∃ node below, scene key = some node ∧ Paints scene node.look.children {} below ∧
    node.look.enclose id {} below = commands

/-- A piece of what is recorded of a boundary: a command, or the slot of a boundary below. -/
inductive Piece where
  | command (command : DisplayCommand)
  | slot (key : Nat) (offset : Offset)

/-- Recording some siblings, the offset of whose parent is given. -/
inductive Records (scene : Scene) : List Nat → Offset → List Piece → Prop where
  | none {offset : Offset} : Records scene [] offset []
  | boundary {key : Nat} {rest : List Nat} {offset : Offset} {node : SceneNode}
      {after : List Piece} (found : scene key = some node) (apart : node.look.boundary = true)
      (later : Records scene rest offset after) :
      Records scene (key :: rest) offset (.slot key (offset + node.offset) :: after)
  | inner {key : Nat} {rest : List Nat} {offset : Offset} {node : SceneNode}
      {below after : List Piece} (found : scene key = some node)
      (within : node.look.boundary = false)
      (inside : Records scene node.look.children (offset + node.offset) below)
      (later : Records scene rest offset after) :
      Records scene (key :: rest) offset
        (node.look.enclose .command (offset + node.offset) below ++ after)

/-- What is recorded of a boundary. -/
def Recording (scene : Scene) (key : Nat) (pieces : List Piece) : Prop :=
  ∃ node below, scene key = some node ∧ Records scene node.look.children {} below ∧
    node.look.enclose .command {} below = pieces

section Painting
variable {scene other : Scene} {keys : List Nat} {offset : Offset} {key : Nat}
  {commands again : List DisplayCommand} {pieces : List Piece} {look : Look}

/-- There is one way to paint. -/
theorem Paints.unique (paints : Paints scene keys offset commands) :
    ∀ {again}, Paints scene keys offset again → again = commands := by
  induction paints with
  | none =>
    intro again other
    cases other
    rfl
  | child found _ _ inside later =>
    intro again other
    cases other with
    | child same within after =>
      cases found.symm.trans same
      rw [inside within, later after]

theorem Shows.unique (shows_ : Shows scene key commands) (other : Shows scene key again) :
    again = commands := by
  obtain ⟨node, below, found, paints, rfl⟩ := shows_
  obtain ⟨_, _, same, others, rfl⟩ := other
  cases found.symm.trans same
  rw [paints.unique others]

open Classical in
/-- The picture of an object that lies at the origin, where it has one. -/
noncomputable def Scene.picture (scene : Scene) (key : Nat) : List DisplayCommand :=
  if drawn : ∃ commands, Shows scene key commands then drawn.choose else []

theorem Shows.picture (shows_ : Shows scene key commands) : scene.picture key = commands := by
  have drawn : ∃ commands, Shows scene key commands := ⟨commands, shows_⟩
  rw [Scene.picture, dif_pos drawn]
  exact shows_.unique drawn.choose_spec

theorem enclose_translate (moved : Offset) (below : List DisplayCommand) :
    (look.enclose id offset below).map (DisplayCommand.translate moved) =
      look.enclose id (offset + moved)
        (below.map (DisplayCommand.translate moved)) := by
  have own : (look.drawn.map (DisplayCommand.translate offset)).map
      (DisplayCommand.translate moved) =
        look.drawn.map (DisplayCommand.translate (offset + moved)) := by
    rw [List.map_map]
    exact List.map_congr_left fun command _ => translate_translate offset moved command
  unfold Look.enclose
  dsimp only
  simp only [id_eq]
  split
  · simp only [List.map_append, List.map_cons, own, List.map_nil]
    rfl
  · rw [List.map_append, own]

/-- What is painted elsewhere is moved there. -/
theorem Paints.translate (moved : Offset) (paints : Paints scene keys offset commands) :
    Paints scene keys (offset + moved) (commands.map (DisplayCommand.translate moved)) := by
  induction paints with
  | none => exact .none
  | child found _ _ inside later =>
    rw [List.map_append, enclose_translate, add_offset_right_comm]
    rw [add_offset_right_comm] at inside
    exact .child found inside later

/-- An object of a scene paints its picture, moved to where it is. -/
theorem Shows.paints {node : SceneNode} {rest : List Nat} {after : List DisplayCommand}
    (shows_ : Shows scene key commands) (found : scene key = some node)
    (later : Paints scene rest offset after) : Paints scene (key :: rest) offset
      (commands.map (DisplayCommand.translate (offset + node.offset)) ++ after) := by
  obtain ⟨_, below, same, paints, rfl⟩ := shows_
  cases found.symm.trans same
  have inside := paints.translate (offset + node.offset)
  rw [enclose_translate]
  rw [zero_add_offset] at inside ⊢
  exact .child found inside later

/-! Filling the slots. -/

/-- A slot is filled with the picture of its boundary, moved to where that is. -/
def Piece.fill (picture : Nat → List DisplayCommand) : Piece → List DisplayCommand
  | .command drawn => [drawn]
  | .slot key offset => (picture key).map (DisplayCommand.translate offset)

theorem fill_commands (picture : Nat → List DisplayCommand) (commands : List DisplayCommand) :
    (commands.map Piece.command).flatMap (Piece.fill picture) = commands := by
  rw [List.flatMap_map]
  exact List.flatMap_singleton' commands

theorem fill_enclose (picture : Nat → List DisplayCommand) (pieces : List Piece) :
    (look.enclose .command offset pieces).flatMap (Piece.fill picture) =
      look.enclose id offset (pieces.flatMap (Piece.fill picture)) := by
  have own : (look.drawn.map fun command => Piece.command (command.translate offset)).flatMap
      (Piece.fill picture) = look.drawn.map (DisplayCommand.translate offset) := by
    have filled := fill_commands picture (look.drawn.map (DisplayCommand.translate offset))
    rwa [List.map_map] at filled
  unfold Look.enclose
  dsimp only
  simp only [id_eq]
  split
  · simp only [List.flatMap_append, List.flatMap_cons, own, Piece.fill, List.flatMap_nil]
    rfl
  · rw [List.flatMap_append, own]

/-- What is recorded is what is painted, once its slots are filled. -/
theorem Records.fill {picture : Nat → List DisplayCommand}
    (records : Records scene keys offset pieces)
    (filled : ∀ key offset, .slot key offset ∈ pieces → Shows scene key (picture key)) :
    Paints scene keys offset (pieces.flatMap (Piece.fill picture)) := by
  induction records with
  | none => exact .none
  | boundary found apart _ later =>
    have shown := filled _ _ List.mem_cons_self
    rw [List.flatMap_cons, Piece.fill]
    exact shown.paints found (later fun key offset listed =>
      filled key offset (List.mem_cons_of_mem _ listed))
  | @inner key rest offset node below after found within _ _ inside later =>
    have kept : ∀ piece ∈ below,
        piece ∈ node.look.enclose .command (offset + node.offset) below := by
      intro piece listed
      unfold Look.enclose
      dsimp only
      split <;> simp [listed]
    rw [List.flatMap_append, fill_enclose]
    refine .child found (inside fun key offset listed => filled key offset ?_)
      (later fun key offset listed => filled key offset ?_)
    · exact List.mem_append_left _ (kept _ listed)
    · exact List.mem_append_right _ listed

theorem Recording.fill {picture : Nat → List DisplayCommand}
    (recording : Recording scene key pieces)
    (filled : ∀ key offset, .slot key offset ∈ pieces → Shows scene key (picture key)) :
    Shows scene key (pieces.flatMap (Piece.fill picture)) := by
  obtain ⟨node, below, found, records, rfl⟩ := recording
  refine ⟨node, _, found, records.fill fun key offset listed => filled key offset ?_,
    (fill_enclose picture below).symm⟩
  unfold Look.enclose
  dsimp only
  split <;> simp [listed]

/-! Scenes that are alike where something is painted. -/

/-- What is painted depends on the objects painted, all of which are met going down. -/
theorem Paints.congr (paints : Paints scene keys offset commands) (met : Nat → Prop) :
    (∀ key ∈ keys, met key) → (∀ key node, met key → scene key = some node →
      other key = some node ∧ ∀ child ∈ node.look.children, met child) →
    Paints other keys offset commands := by
  induction paints with
  | none => exact fun _ _ => .none
  | child found _ _ inside later =>
    intro listed same
    obtain ⟨kept, below⟩ := same _ _ (listed _ List.mem_cons_self) found
    exact .child kept (inside below same)
      (later (fun key among => listed key (List.mem_cons_of_mem _ among)) same)

/-- What is recorded depends on the objects recorded, and on where the boundaries are that are
met. -/
theorem Records.congr (records : Records scene keys offset pieces) (met : Nat → Prop) :
    (∀ key ∈ keys, met key) → (∀ key node, met key → scene key = some node →
      ∃ now, other key = some now ∧ now.offset = node.offset ∧
        now.look.boundary = node.look.boundary ∧ (node.look.boundary = false →
          now.look = node.look ∧ ∀ child ∈ node.look.children, met child)) →
    Records other keys offset pieces := by
  induction records with
  | none => exact fun _ _ => .none
  | boundary found apart _ later =>
    intro listed same
    obtain ⟨now, kept, offset, boundary, _⟩ := same _ _ (listed _ List.mem_cons_self) found
    rw [← offset]
    exact .boundary kept (boundary.trans apart)
      (later (fun key among => listed key (List.mem_cons_of_mem _ among)) same)
  | inner found within _ _ inside later =>
    intro listed same
    obtain ⟨now, kept, offset, boundary, rest⟩ := same _ _ (listed _ List.mem_cons_self) found
    obtain ⟨looks, below⟩ := rest within
    have inside := inside below same
    rw [← offset, ← looks] at inside ⊢
    exact .inner kept (boundary.trans within) inside
      (later (fun key among => listed key (List.mem_cons_of_mem _ among)) same)

end Painting

end Dui
