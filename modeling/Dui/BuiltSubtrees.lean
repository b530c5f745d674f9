import Dui.ElementHistory

/-! The elements that reconciling a view comes to, down to the components and the lazy lists
among them, which see to their children themselves. They stand as they were made while the
element they were made for is left alone. -/
namespace Dui
open Effect BuildOwner

variable {α : Type}

/-- What an element holds of the view it was updated with last. -/
structure Face (α : Type) where
  descriptor : Option α
  debugValue : Option α
  activeBranch : Option Nat
  lazyModel : Option (LazyModel α)
  rebuild : Bool

def Element.face (element : Element α) : Face α :=
  ⟨element.descriptor, element.debugValue, element.activeBranch, element.lazyModel,
    element.rebuild⟩

/-- An element that sees to its children itself: it can be rebuilt, or is a lazy list. -/
def Face.defers (face : Face α) : Bool := face.rebuild || face.lazyModel.isSome

/-- What an element holds that was updated with the view. -/
def View.HeldBy : View α → Face α → Prop
  | .component _ descriptor, face => face.descriptor = some descriptor
  | .leaf _ _ value, face => face.debugValue = some value
  | .choice _ branch _, face => face.activeBranch = some branch
  | .lazyList _ _ items keepAliveKeys keepAliveLimit, face =>
    face.lazyModel = some ⟨items, keepAliveKeys, keepAliveLimit⟩
  | _, _ => True

/-- The element after what does not concern its place, its children and what it holds. -/
structure Element.Undisturbed (before after : Element α) : Prop where
  lasts : before.Lasts after
  updateCount : after.updateCount = before.updateCount
  dirty : before.dirty = true → after.dirty = true
  children : after.children = before.children
  keptAlive : after.lazyKeptAliveChildren = before.lazyKeptAliveChildren
  face : after.face = before.face

theorem undisturbed_unseeing :
    Unseeing (Element.Undisturbed : Element α → Element α → Prop) where
  refl element := ⟨.refl element, rfl, fun dirty => dirty, rfl, rfl, rfl⟩
  trans first second := ⟨first.lasts.trans second.lasts,
    second.updateCount.trans first.updateCount, fun dirty => second.dirty (first.dirty dirty),
    second.children.trans first.children, second.keptAlive.trans first.keptAlive,
    second.face.trans first.face⟩
  depends _ _ := ⟨⟨rfl, rfl, rfl, rfl, rfl, le_rfl⟩, rfl, fun dirty => dirty, rfl, rfl, rfl⟩
  reads _ _ := ⟨⟨rfl, rfl, rfl, rfl, rfl, le_rfl⟩, rfl, fun dirty => dirty, rfl, rfl, rfl⟩
  provides _ _ := ⟨⟨rfl, rfl, rfl, rfl, rfl, le_rfl⟩, rfl, fun dirty => dirty, rfl, rfl, rfl⟩
  state _ _ := ⟨⟨rfl, rfl, rfl, rfl, rfl, le_rfl⟩, rfl, fun dirty => dirty, rfl, rfl, rfl⟩
  marked _ := ⟨⟨rfl, rfl, rfl, rfl, rfl, le_rfl⟩, rfl, fun _ => rfl, rfl, rfl, rfl⟩

/-- The element has not been updated, and its children are the same unless it sees to them. -/
structure Element.Stands (before after : Element α) : Prop where
  updateCount : after.updateCount = before.updateCount
  face : after.face = before.face
  children : before.face.defers = false → after.children = before.children

theorem Element.Stands.refl (element : Element α) : element.Stands element :=
  ⟨rfl, rfl, fun _ => rfl⟩

theorem Element.Stands.trans {first second third : Element α} (earlier : first.Stands second)
    (later : second.Stands third) : first.Stands third := by
  refine ⟨later.updateCount.trans earlier.updateCount, later.face.trans earlier.face,
    fun plain => ?_⟩
  rw [later.children (earlier.face ▸ plain), earlier.children plain]

theorem Element.Undisturbed.stands {before after : Element α} (kept : before.Undisturbed after) :
    before.Stands after := ⟨kept.updateCount, kept.face, fun _ => kept.children⟩

/-- Where a child belongs: its parent, and how high up it may be. -/
structure Berth where
  parent : Option ElementId
  level : Nat

namespace BuildOwner

/-- The element is issued, and belongs here if it is mounted. -/
def Below (owner : BuildOwner α) (berth : Berth) (id : ElementId) : Prop :=
  id < owner.nextId ∧ ∀ element, owner.registry id = some element →
    element.parent = berth.parent ∧ berth.level ≤ element.depth

/-- What an element lists belongs to it. -/
def Nested (owner : BuildOwner α) : Prop :=
  ∀ id element, owner.registry id = some element →
    ∀ child ∈ element.children ++ element.lazyKeptAliveChildren,
      owner.Below ⟨some id, element.depth + 1⟩ child

/-- The elements from this one on down to the next components and lazy lists. -/
inductive Inner (owner : BuildOwner α) (child : ElementId) : ElementId → Prop where
  | self : owner.Inner child child
  | deeper {id inner : ElementId} {element : Element α} (within : owner.Inner child id)
      (mounted : owner.registry id = some element)
      (plain : element.face.defers = false) (listed : inner ∈ element.children) :
      owner.Inner child inner

/-- What was reconciled for a child stands as it was made, as far as it is still there. -/
structure Standing (reconciled owner : BuildOwner α) (berth : Berth) (child : ElementId) :
    Prop where
  nested : reconciled.Nested
  below : reconciled.Below berth child
  later : reconciled.Later owner
  stands : ∀ id, reconciled.Inner child id → ∀ before after,
    reconciled.registry id = some before → owner.registry id = some after → before.Stands after

/-- Elements may go, and those that are left are undisturbed. -/
structure Prunes (owner next : BuildOwner α) : Prop where
  nextId : next.nextId = owner.nextId
  elements : ∀ id after, next.registry id = some after →
    ∃ before, owner.registry id = some before ∧ before.Undisturbed after

variable {start owner next reconciled : BuildOwner α} {berth : Berth} {child id : ElementId}

theorem Below.later (later : owner.Later next) (below : owner.Below berth id) :
    next.Below berth id := by
  refine ⟨below.1.trans_le later.nextId, fun element held => ?_⟩
  obtain ⟨before, held, lasts⟩ := later.elements id element below.1 held
  rw [lasts.parent, lasts.depth]
  exact below.2 before held

/-! ### Pruning -/

theorem Prunes.trans {last : BuildOwner α} (first : owner.Prunes next) (second : next.Prunes last) :
    owner.Prunes last := by
  refine ⟨second.nextId.trans first.nextId, fun id after held => ?_⟩
  obtain ⟨middle, held, later⟩ := second.elements id after held
  obtain ⟨before, held, earlier⟩ := first.elements id middle held
  exact ⟨before, held, undisturbed_unseeing.trans earlier later⟩

theorem Reworks.prunes (reworks : Reworks Element.Undisturbed owner next) :
    owner.Prunes next := by
  refine ⟨reworks.nextId, fun id after held => ?_⟩
  have there : (owner.registry id).isSome := by
    rw [← reworks.mounted, held]
    rfl
  obtain ⟨before, there⟩ := Option.isSome_iff_exists.mp there
  exact ⟨before, there, reworks.elements id before after there held⟩

theorem Prunes.evolves (prunes : owner.Prunes next) : owner.Evolves next := by
  refine ⟨prunes.nextId, fun id after held => ?_⟩
  obtain ⟨before, there, kept⟩ := prunes.elements id after held
  exact ⟨before, there, kept.lasts⟩

theorem remove_prunes (owner : BuildOwner α) (id : ElementId) :
    owner.Prunes (owner.removeElement id) := by
  have cleared := (clear_reworks undisturbed_unseeing owner id).prunes
  have erased : (owner.clearDependencies id).Prunes
      { owner.clearDependencies id with
        dirty := (owner.clearDependencies id).dirty.filter (· ≠ id)
        registry := fun other => if other = id then none
          else (owner.clearDependencies id).registry other
        unmountCount := (owner.clearDependencies id).unmountCount + 1 } := by
    refine ⟨rfl, fun other after held => ?_⟩
    dsimp only at held
    split at held
    · cases held
    · exact ⟨after, held, undisturbed_unseeing.refl after⟩
  exact (cleared.trans erased).trans (Reworks.foldl undisturbed_unseeing (fun owner type =>
    drop_source_reworks undisturbed_unseeing owner (.environment id type)) _ _).prunes

/-- Unmounting prunes, by induction on how deep it goes. -/
theorem unmount_prunes (start : BuildOwner α) (fuel : Nat) : ∀ id,
    Keeps start.Prunes (unmount fuel id : Building α Unit) := by
  induction fuel with
  | zero => exact fun _ => Keeps.diverge
  | succ fuel ih =>
    intro id
    refine Keeps.bind Keeps.read fun found => ?_
    cases found with
    | none => exact Keeps.pure
    | some element =>
      exact Keeps.bind (Keeps.each ih element.children) fun _ =>
        Keeps.bind (Keeps.each ih element.lazyKeptAliveChildren) fun _ =>
          Keeps.change fun owner prunes => prunes.trans (remove_prunes owner id)

/-! ### Standing -/

theorem Inner.issued (nested : reconciled.Nested) (below : reconciled.Below berth child)
    (inner : reconciled.Inner child id) : id < reconciled.nextId := by
  induction inner with
  | self => exact below.1
  | deeper _ mounted _ listed => exact (nested _ _ mounted _ (List.mem_append_left _ listed)).1

/-- What is inside of a child is no higher up than the child may be. -/
theorem Inner.deep (nested : reconciled.Nested) (below : reconciled.Below berth child)
    (inner : reconciled.Inner child id) : ∀ element, reconciled.registry id = some element →
    berth.level ≤ element.depth := by
  induction inner with
  | self => exact fun element held => (below.2 element held).2
  | @deeper upper inner element _ mounted _ listed ih =>
    intro lower held
    have deeper := ((nested upper element mounted inner (List.mem_append_left _ listed)).2 lower
      held).2
    exact (ih element mounted).trans ((Nat.le_succ _).trans deeper)

namespace Standing

theorem refl (issued : reconciled.Issued) (nested : reconciled.Nested)
    (below : reconciled.Below berth child) : Standing reconciled reconciled berth child := by
  refine ⟨nested, below, .refl issued, fun id _ before after stood held => ?_⟩
  cases stood.symm.trans held
  exact .refl before

/-- What is inside and there was there. -/
theorem former (standing : Standing reconciled owner berth child)
    (inner : reconciled.Inner child id) {element : Element α}
    (held : owner.registry id = some element) :
    ∃ before, reconciled.registry id = some before ∧ before.Lasts element :=
  standing.later.elements id element (inner.issued standing.nested standing.below) held

/-- Standing goes on where what is inside of the child is left alone. -/
theorem step (standing : Standing reconciled owner berth child) (later : owner.Later next)
    (same : ∀ id, reconciled.Inner child id → ∀ before after, owner.registry id = some before →
      next.registry id = some after → before.Stands after) :
    Standing reconciled next berth child := by
  refine ⟨standing.nested, standing.below, standing.later.trans later,
    fun id inner before after stood held => ?_⟩
  have issued : id < owner.nextId :=
    (inner.issued standing.nested standing.below).trans_le standing.later.nextId
  obtain ⟨middle, found, _⟩ := later.elements id after issued held
  exact (standing.stands id inner before middle stood found).trans
    (same id inner middle after found held)

theorem prune (standing : Standing reconciled owner berth child) (prunes : owner.Prunes next) :
    Standing reconciled next berth child := by
  refine standing.step ((Later.refl standing.later.issued).evolve prunes.evolves)
    fun id _ before after found held => ?_
  obtain ⟨_, again, kept⟩ := prunes.elements id after held
  cases found.symm.trans again
  exact kept.stands

/-- Changing an element that is above the child. -/
theorem update (standing : Standing reconciled owner berth child) {f : Element α → Element α}
    {element : Element α} (mounted : owner.registry id = some element)
    (above : element.depth < berth.level) (lasts : ∀ element : Element α, element.Lasts (f element))
    (registry : next.registry = (owner.updateElement id f).registry)
    (nextId : next.nextId = owner.nextId) : Standing reconciled next berth child := by
  have reworks : Reworks Element.Lasts owner next :=
    .trans lasts_unseeing (.update lasts_unseeing lasts) (.of_same lasts_unseeing registry nextId)
  refine standing.step ((Later.refl standing.later.issued).evolve reworks.evolves)
    fun other inner before after found held => ?_
  rw [registry] at held
  obtain ⟨_, again, ⟨rfl, _⟩ | ⟨_, rfl⟩⟩ := update_element_cases held
  · cases mounted.symm.trans found
    obtain ⟨earlier, stood, lasted⟩ := standing.former inner found
    have deep := inner.deep standing.nested standing.below earlier stood
    rw [← lasted.depth] at deep
    omega
  · cases found.symm.trans again
    exact .refl before

end Standing

end BuildOwner

end Dui
