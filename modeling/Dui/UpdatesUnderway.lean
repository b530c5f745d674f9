import Mathlib.Logic.Relation
import Dui.BuiltSubtrees
import Dui.ElementRegistry

/-! What a call on the owner has come to while the updates of some elements are under way.
Whatever is not open is left alone, and a component that was due when the call began is
rebuilt once it has been reconciled. -/
namespace Dui
open Effect BuildOwner

variable {α : Type}

/-- The element shows a view of this type under this key, and has been reconciled since the
start. -/
def BuildOwner.Refreshed (start owner : BuildOwner α) (id : ElementId)
    (type : ViewKind × TypeToken) (key : Key) : Prop :=
  id < owner.nextId ∧ ∀ element, owner.registry id = some element →
    element.viewType = type ∧ element.key = key ∧
      ∀ earlier, start.registry id = some earlier → earlier.updateCount < element.updateCount

/-- A component that is not left alone when it is reconciled, whatever its value. -/
def Element.Due (program : Program α) (element : Element α) : Prop :=
  element.viewType.1 = .component ∧
    (program.comparable element.viewType.2 = false ∨ element.dirty = true)

/-- An element whose update is under way, or the update of what is below it. -/
structure Frozen (α : Type) where
  id : ElementId
  depth : Nat
  parent : Option ElementId
  viewType : ViewKind × TypeToken
  face : Face α
  /-- The element is updated itself, and not only what is below it. -/
  entire : Bool

def Element.frozen (element : Element α) (id : ElementId) (entire : Bool) : Frozen α :=
  ⟨id, element.depth, element.parent, element.viewType, element.face, entire⟩

/-- The element is as it was frozen. -/
structure Frozen.Shows (frozen : Frozen α) (element : Element α) : Prop where
  depth : element.depth = frozen.depth
  parent : element.parent = frozen.parent
  viewType : element.viewType = frozen.viewType
  face : element.face = frozen.face

/-- Where the children of the element belong. -/
def Frozen.berth (frozen : Frozen α) : Berth := ⟨some frozen.id, frozen.depth + 1⟩

/-- An element is updated as the root or for its parent, which is being updated as well; or
it sees to its children itself, and they alone are updated. -/
def InTurn : List (Frozen α) → Prop
  | [] => True
  | frozen :: outer =>
    (frozen.entire = true → frozen.parent = none ∨
      ∃ other ∈ outer, frozen.parent = some other.id) ∧
    (frozen.entire = false → frozen.face.defers = true) ∧ InTurn outer

variable [DecidableEq α] {program : Program α} {start owner next : BuildOwner α}
  {id : ElementId} {frozen : Frozen α} {outer opens : List (Frozen α)} {berth : Berth}

/-- A build for an element that has returned since the start, and the reconciling of its view
with the child of the element, which has returned as well. -/
structure CompletedBuild (program : Program α) (start : BuildOwner α) (id : ElementId) where
  type : TypeToken
  value : α
  during : BuildOwner α
  view : View α
  built : BuildOwner α
  fuel : Nat
  slot : Option ElementId
  child : ElementId
  reconciled : BuildOwner α
  later : start.Later during
  active : during.active = some id
  ran : runBuild (program.build type value) during = some (.ok view, built)
  done : reconcileChild program fuel slot view (some id) .none built =
    some (.ok (child, .ok ()), reconciled)

/-- The only child of the element is what the build has come to. Values that are equal to
their type count as one. -/
structure BuildOwner.RemadeBy (start owner : BuildOwner α) (id : ElementId)
    (element : Element α) (build : CompletedBuild program start id) (last : α) : Prop where
  type : element.viewType.2 = build.type
  descriptor : element.descriptor = some last
  equal : Relation.ReflTransGen (fun old new => program.same build.type old new = true)
    build.value last
  children : element.children = [build.child]
  refreshed : start.Refreshed owner build.child build.view.token .none
  held : ∀ shown, build.reconciled.registry build.child = some shown →
    build.view.HeldBy shown.face
  standing : Standing build.reconciled owner ⟨some id, element.depth + 1⟩ build.child

def BuildOwner.Remade (program : Program α) (start owner : BuildOwner α) (id : ElementId)
    (element : Element α) : Prop :=
  ∃ (build : CompletedBuild program start id) (last : α),
    start.RemadeBy owner id element build last

/-- What has become of an element that was due at the start: it has not been reconciled
yet, or it is remade. -/
def BuildOwner.Served (program : Program α) (start owner : BuildOwner α) (id : ElementId) : Prop :=
  ∀ before after, start.registry id = some before → owner.registry id = some after →
    before.Due program →
    (after.updateCount = before.updateCount ∧ (before.dirty = true → after.dirty = true)) ∨
      start.Remade program owner id after

/-- Between the start of a call and its return, with some updates under way. -/
structure BuildOwner.Underway (program : Program α) (start : BuildOwner α)
    (opens : List (Frozen α)) (owner : BuildOwner α) : Prop where
  issued : start.Issued
  later : start.Later owner
  nested : owner.Nested
  lazy : ∀ id element, owner.registry id = some element → element.lazyModel.isSome →
    element.viewType.1 = .lazyList
  frozen : ∀ frozen ∈ opens, ∃ element, owner.registry frozen.id = some element ∧
    frozen.Shows element
  ordered : InTurn opens
  served : ∀ id, (∀ frozen ∈ opens, frozen.id ≠ id) → start.Served program owner id

omit [DecidableEq α] in
theorem InTurn.updated (ordered : InTurn opens) : ∀ frozen ∈ opens, frozen.entire = true →
    frozen.parent = none ∨ ∃ other ∈ opens, frozen.parent = some other.id := by
  induction opens with
  | nil => exact fun _ among => absurd among List.not_mem_nil
  | cons first outer ih =>
    intro frozen among entire
    rcases List.mem_cons.mp among with rfl | among
    · exact (ordered.1 entire).imp_right fun ⟨other, listed, same⟩ =>
        ⟨other, List.mem_cons_of_mem _ listed, same⟩
    · exact (ih ordered.2.2 frozen among entire).imp_right fun ⟨other, listed, same⟩ =>
        ⟨other, List.mem_cons_of_mem _ listed, same⟩

omit [DecidableEq α] in
theorem InTurn.partly (ordered : InTurn opens) : ∀ frozen ∈ opens, frozen.entire = false →
    frozen.face.defers = true := by
  induction opens with
  | nil => exact fun _ among => absurd among List.not_mem_nil
  | cons first outer ih =>
    intro frozen among partly
    rcases List.mem_cons.mp among with rfl | among
    · exact ordered.2.1 partly
    · exact ih ordered.2.2 frozen among partly

namespace BuildOwner

omit [DecidableEq α] in
theorem Refreshed.later {type : ViewKind × TypeToken} {key : Key} (later : owner.Later next)
    (refreshed : start.Refreshed owner id type key) : start.Refreshed next id type key := by
  refine ⟨refreshed.1.trans_le later.nextId, fun element held => ?_⟩
  obtain ⟨before, held, lasts⟩ := later.elements id element refreshed.1 held
  obtain ⟨typed, keyed, counted⟩ := refreshed.2 before held
  exact ⟨lasts.viewType.trans typed, lasts.key.trans keyed, fun earlier stood =>
    (counted earlier stood).trans_le lasts.updateCount⟩

/-- The element is remade as long as it keeps its child and what it holds, and the child
stands. -/
theorem Remade.later {before after : Element α} (later : owner.Later next)
    (lasts : before.Lasts after) (children : after.children = before.children)
    (face : after.face = before.face)
    (standing : ∀ reconciled child, Standing reconciled owner ⟨some id, before.depth + 1⟩ child →
      Standing reconciled next ⟨some id, before.depth + 1⟩ child)
    (remade : start.Remade program owner id before) : start.Remade program next id after := by
  obtain ⟨build, last, remade⟩ := remade
  refine ⟨build, last, ?_, ?_, remade.equal, children.trans remade.children,
    remade.refreshed.later later, remade.held, ?_⟩
  · rw [lasts.viewType]
    exact remade.type
  · exact (congrArg Face.descriptor face).trans remade.descriptor
  · rw [lasts.depth]
    exact standing _ _ remade.standing

omit [DecidableEq α] in
/-- The parent of what is updated itself is updated as well. -/
theorem parent_open (ordered : InTurn opens) {element before : Element α} {parent : ElementId}
    (shows : frozen.Shows element) (lasts : before.Lasts element)
    (named : before.parent = some parent) (among : frozen ∈ opens)
    (entire : frozen.entire = true) : ∃ other ∈ opens, other.id = parent := by
  have same : frozen.parent = some parent := by rw [← shows.parent, lasts.parent, named]
  rcases ordered.updated frozen among entire with top | ⟨other, listed, above⟩
  · cases same.symm.trans top
  · exact ⟨other, listed, (Option.some.inj (same.symm.trans above)).symm⟩

omit [DecidableEq α] in
/-- No element inside of a child is updated itself while the element is left alone whose
child it is: its parent would be updated, and so on up to the element. -/
theorem inner_partly {reconciled : BuildOwner α} {level : Nat} {child : ElementId}
    (evolves : owner.Evolves next) (ordered : InTurn opens)
    (present : ∀ frozen ∈ opens, ∃ element, next.registry frozen.id = some element ∧
      frozen.Shows element)
    (partly : ∀ frozen ∈ opens, frozen.entire = false → ∀ before after,
      owner.registry frozen.id = some before → next.registry frozen.id = some after →
      after.updateCount = before.updateCount ∧ after.face = before.face)
    (standing : Standing reconciled owner ⟨some id, level⟩ child)
    (closed : ∀ frozen ∈ opens, frozen.id ≠ id) {inner : ElementId}
    (within : reconciled.Inner child inner) :
    ∀ frozen ∈ opens, frozen.id = inner → frozen.entire = false := by
  induction within with
  | self =>
    rintro frozen among rfl
    obtain ⟨element, there, shows⟩ := present frozen among
    obtain ⟨middle, held, later⟩ := evolves.elements _ element there
    obtain ⟨before, stood, earlier⟩ := standing.former .self held
    rw [← Bool.not_eq_true]
    intro entire
    obtain ⟨other, listed, named⟩ := parent_open ordered shows (earlier.trans later)
      (standing.below.2 before stood).1 among entire
    exact closed other listed named
  | @deeper upper inner former within mounted plain listed ih =>
    rintro frozen among rfl
    obtain ⟨element, there, shows⟩ := present frozen among
    obtain ⟨middle, held, later⟩ := evolves.elements _ element there
    obtain ⟨before, stood, earlier⟩ := standing.former (.deeper within mounted plain listed) held
    rw [← Bool.not_eq_true]
    intro entire
    obtain ⟨other, open', rfl⟩ := parent_open ordered shows (earlier.trans later)
      ((standing.nested upper former mounted frozen.id (List.mem_append_left _ listed)).2 before
        stood).1 among entire
    obtain ⟨above, there, same⟩ := present other open'
    obtain ⟨middle, held, _⟩ := evolves.elements _ above there
    have sheltered := ih other open' rfl
    have defers := ordered.partly other open' sheltered
    rw [← same.face, (partly other open' sheltered middle above held there).2,
      (standing.stands _ within former middle mounted held).face, plain] at defers
    cases defers

/-- A change of the owner while updates are under way: whatever is not open is left alone, and
where only what is below an element is updated, the element keeps what it holds. -/
theorem Underway.renew {renewed : List (Frozen α)} (underway : Underway program start opens owner)
    (evolves : owner.Evolves next)
    (present : ∀ frozen ∈ renewed, ∃ element, next.registry frozen.id = some element ∧
      frozen.Shows element)
    (ordered : InTurn renewed)
    (covered : ∀ frozen ∈ opens, ∃ other ∈ renewed, other.id = frozen.id)
    (nested : ∀ id before after, owner.registry id = some before → next.registry id = some after →
      ∀ child ∈ after.children ++ after.lazyKeptAliveChildren,
        child ∈ before.children ++ before.lazyKeptAliveChildren ∨
          owner.Below ⟨some id, before.depth + 1⟩ child)
    (lazy : ∀ id before after, owner.registry id = some before → next.registry id = some after →
      after.lazyModel.isSome → before.lazyModel.isSome ∨ before.viewType.1 = .lazyList)
    (partly : ∀ frozen ∈ renewed, frozen.entire = false → ∀ before after,
      owner.registry frozen.id = some before → next.registry frozen.id = some after →
      after.updateCount = before.updateCount ∧ after.face = before.face)
    (same : ∀ id, (∀ frozen ∈ renewed, frozen.id ≠ id) → ∀ before after,
      owner.registry id = some before → next.registry id = some after →
      after.updateCount = before.updateCount ∧ (before.dirty = true → after.dirty = true) ∧
        after.children = before.children ∧ after.face = before.face) :
    Underway program start renewed next := by
  have onward : owner.Later next := (Later.refl underway.later.issued).evolve evolves
  refine ⟨underway.issued, underway.later.evolve evolves, fun id after held child listed => ?_,
    fun id after held modelled => ?_, present, ordered, fun id closed => ?_⟩
  · obtain ⟨before, found, lasts⟩ := evolves.elements id after held
    rw [lasts.depth]
    refine Below.later onward ?_
    rcases nested id before after found held child listed with listed | below
    · exact underway.nested id before found child listed
    · exact below
  · obtain ⟨before, found, lasts⟩ := evolves.elements id after held
    rw [lasts.viewType]
    rcases lazy id before after found held modelled with modelled | typed
    · exact underway.lazy id before found modelled
    · exact typed
  · have shut : ∀ frozen ∈ opens, frozen.id ≠ id := by
      intro frozen among here
      obtain ⟨other, listed, named⟩ := covered frozen among
      exact closed other listed (named.trans here)
    intro before after stood held due
    obtain ⟨middle, found, lasts⟩ := evolves.elements id after held
    obtain ⟨counted, dirty, children, face⟩ := same id closed middle after found held
    rcases underway.served id shut before middle stood found due with ⟨unread, kept⟩ | remade
    · exact Or.inl ⟨counted.trans unread, fun marked => dirty (kept marked)⟩
    · refine Or.inr (remade.later onward lasts children face fun reconciled child standing => ?_)
      -- What is inside of the child is closed, or not updated itself.
      refine standing.step onward fun inner within earlier later found held => ?_
      by_cases open' : ∃ frozen ∈ renewed, frozen.id = inner
      · obtain ⟨frozen, among, rfl⟩ := open'
        have sheltered := inner_partly evolves ordered present partly standing closed within
          frozen among rfl
        obtain ⟨counted, face⟩ := partly frozen among sheltered earlier later found held
        refine ⟨counted, face, fun plain => ?_⟩
        obtain ⟨element, there, shows⟩ := present frozen among
        cases held.symm.trans there
        rw [← face, shows.face, ordered.partly frozen among sheltered] at plain
        cases plain
      · have shut : ∀ frozen ∈ renewed, frozen.id ≠ inner :=
          fun frozen among here => open' ⟨frozen, among, here⟩
        obtain ⟨counted, _, children, face⟩ := same inner shut earlier later found held
        exact ⟨counted, face, fun _ => children⟩

/-- A change of the owner while updates are under way: what is open keeps what it holds, and
everything else is left alone. -/
theorem Underway.change (underway : Underway program start opens owner)
    (evolves : owner.Evolves next)
    (present : ∀ frozen ∈ opens, ∀ before, owner.registry frozen.id = some before →
      ∃ after, next.registry frozen.id = some after ∧ after.updateCount = before.updateCount ∧
        after.face = before.face)
    (nested : ∀ id before after, owner.registry id = some before → next.registry id = some after →
      ∀ child ∈ after.children ++ after.lazyKeptAliveChildren,
        child ∈ before.children ++ before.lazyKeptAliveChildren ∨
          owner.Below ⟨some id, before.depth + 1⟩ child)
    (lazy : ∀ id before after, owner.registry id = some before → next.registry id = some after →
      after.lazyModel.isSome → before.lazyModel.isSome ∨ before.viewType.1 = .lazyList)
    (same : ∀ id, (∀ frozen ∈ opens, frozen.id ≠ id) → ∀ before after,
      owner.registry id = some before → next.registry id = some after →
      after.updateCount = before.updateCount ∧ (before.dirty = true → after.dirty = true) ∧
        after.children = before.children ∧ after.face = before.face) :
    Underway program start opens next := by
  refine underway.renew evolves (fun frozen among => ?_) underway.ordered
    (fun frozen among => ⟨frozen, among, rfl⟩) nested lazy
    (fun frozen among _ before after found held => ?_) same
  · obtain ⟨before, found, shows⟩ := underway.frozen frozen among
    obtain ⟨after, held, _, face⟩ := present frozen among before found
    obtain ⟨_, again, lasts⟩ := evolves.elements frozen.id after held
    cases found.symm.trans again
    exact ⟨after, held, lasts.depth.trans shows.depth, lasts.parent.trans shows.parent,
      lasts.viewType.trans shows.viewType, face.trans shows.face⟩
  · obtain ⟨_, again, kept⟩ := present frozen among before found
    cases held.symm.trans again
    exact kept

/-- Elements may go that are not open, and what is left undisturbed may be changed. -/
theorem Underway.prune (underway : Underway program start opens owner)
    (prunes : owner.Prunes next)
    (present : ∀ frozen ∈ opens, (owner.registry frozen.id).isSome →
      (next.registry frozen.id).isSome) : Underway program start opens next := by
  have former : ∀ id before after, owner.registry id = some before →
      next.registry id = some after → before.Undisturbed after := by
    intro id before after found held
    obtain ⟨_, again, kept⟩ := prunes.elements id after held
    cases found.symm.trans again
    exact kept
  refine underway.change prunes.evolves (fun frozen among before found => ?_)
    (fun id before after found held child listed => ?_)
    (fun id before after found held modelled => ?_) fun id _ before after found held => ?_
  · obtain ⟨after, there⟩ := Option.isSome_iff_exists.mp
      (present frozen among (Option.isSome_iff_exists.mpr ⟨before, found⟩))
    have kept := former frozen.id before after found there
    exact ⟨after, there, kept.updateCount, kept.face⟩
  · have kept := former id before after found held
    rw [kept.children, kept.keptAlive] at listed
    exact Or.inl listed
  · have face := (former id before after found held).face
    rw [show after.lazyModel = before.lazyModel from congrArg Face.lazyModel face] at modelled
    exact Or.inl modelled
  · have kept := former id before after found held
    exact ⟨kept.updateCount, kept.dirty, kept.children, kept.face⟩

/-- What leaves all elements undisturbed may be done at any time. -/
theorem Underway.rework (underway : Underway program start opens owner)
    (reworks : Reworks Element.Undisturbed owner next) : Underway program start opens next :=
  underway.prune reworks.prunes fun frozen _ there => by rw [reworks.mounted, there]

/-- Changing the lists and the bookkeeping of an element whose update is under way. -/
theorem Underway.edit (underway : Underway program start opens owner) {f : Element α → Element α}
    (open' : ∃ frozen ∈ opens, frozen.id = id)
    (lasts : ∀ element : Element α, element.Lasts (f element))
    (kept : ∀ element : Element α, (f element).updateCount = element.updateCount ∧
      (f element).face = element.face)
    (nested : ∀ element, owner.registry id = some element →
      ∀ child ∈ (f element).children ++ (f element).lazyKeptAliveChildren,
        owner.Below ⟨some id, element.depth + 1⟩ child) :
    Underway program start opens (owner.updateElement id f) := by
  have reworks : Reworks Element.Lasts owner (owner.updateElement id f) :=
    .update lasts_unseeing lasts
  have updated : ∀ other before after, owner.registry other = some before →
      (owner.updateElement id f).registry other = some after →
      (other = id ∧ after = f before) ∨ (other ≠ id ∧ after = before) := by
    intro other before after found held
    obtain ⟨_, again, changed⟩ := update_element_cases held
    cases found.symm.trans again
    exact changed
  refine underway.change reworks.evolves (fun frozen _ before found => ?_)
    (fun other before after found held child listed => ?_)
    (fun other before after found held modelled => Or.inl ?_)
    fun other closed before after found held => ?_
  · rw [registry_update, found]
    split
    · exact ⟨f before, rfl, kept before⟩
    · exact ⟨before, rfl, rfl, rfl⟩
  · rcases updated other before after found held with ⟨rfl, rfl⟩ | ⟨_, rfl⟩
    · exact Or.inr (nested before found child listed)
    · exact Or.inl listed
  · rcases updated other before after found held with ⟨_, rfl⟩ | ⟨_, rfl⟩
    · rwa [show (f before).lazyModel = before.lazyModel from
        congrArg Face.lazyModel (kept before).2] at modelled
    · exact modelled
  · rcases updated other before after found held with ⟨rfl, _⟩ | ⟨_, rfl⟩
    · obtain ⟨frozen, among, same⟩ := open'
      exact absurd same (closed frozen among)
    · exact ⟨rfl, fun dirty => dirty, rfl, rfl⟩

end BuildOwner

/-! What leaves the elements alone, and unmounting. -/

theorem underway_keeps {β : Type} {run : Building α β}
    (reworks : ∀ start, Keeps (Reworks Element.Undisturbed start) run) :
    Keeps (Underway program start opens) run :=
  fun owner _ next underway ran => underway.rework
    (reworks owner owner _ next (.refl undisturbed_unseeing owner) ran)

omit [DecidableEq α] in
/-- What is kept as time goes by holds after whatever is done to the owner. -/
theorem later_stays {β : Type} {run : Building α β} {pre held : BuildOwner α → Prop}
    {post : β → BuildOwner α → Prop} (issued : ∀ owner, pre owner → owner.Issued)
    (stays : ∀ owner next : BuildOwner α, owner.Later next → held owner → held next)
    (later : ∀ start : BuildOwner α, Keeps start.Later run) (yields : Yields pre run post) :
    Yields (fun owner => pre owner ∧ held owner) run fun value owner =>
      post value owner ∧ held owner := by
  rintro owner value next ⟨before, holds⟩ ran
  have onward := later owner owner _ next (.refl (issued owner before)) ran
  exact ⟨yields owner value next before ran, stays owner next onward holds⟩

/-- What is below something stays there, whatever is done to the owner. -/
theorem below_stays {β : Type} {run : Building α β} {pre : BuildOwner α → Prop}
    {post : β → BuildOwner α → Prop} {ids : List ElementId}
    (yields : Yields (fun owner => Underway program start opens owner ∧ pre owner) run post)
    (later : ∀ start : BuildOwner α, Keeps start.Later run) :
    Yields (fun owner => (Underway program start opens owner ∧ ∀ id ∈ ids, owner.Below berth id) ∧
      pre owner) run fun value owner => post value owner ∧ ∀ id ∈ ids, owner.Below berth id := by
  refine (later_stays (fun owner held => held.1.later.issued)
    (fun owner next onward below id listed => (below id listed).later onward) later yields).weaken
    ?_ fun _ _ held => held
  exact fun owner held => ⟨⟨held.1.1, held.2⟩, held.1.2⟩

omit [DecidableEq α] in
theorem remove_isSome (owner : BuildOwner α) {other : ElementId} (different : other ≠ id) :
    ((owner.removeElement id).registry other).isSome = (owner.registry other).isSome := by
  have same := congrArg (fun shape => (shape.nodes other).isSome) (remove_element_shape owner id)
  simpa [BuildOwner.shape, Hierarchy.Shape.remove, different] using same

/-- Everything under way is above this. -/
def Above (opens : List (Frozen α)) (level : Nat) : Prop := ∀ frozen ∈ opens, frozen.depth < level

/-- Unmounting all of a list, given that each may be unmounted. -/
theorem each_unmounted {body : ElementId → Building α Unit}
    (one : ∀ id, Yields (fun owner => Underway program start opens owner ∧ owner.Below berth id)
      (body id) fun _ => Underway program start opens)
    (later : ∀ (start : BuildOwner α) id, Keeps start.Later (body id)) (ids : List ElementId) :
    Yields (fun owner => Underway program start opens owner ∧ ∀ id ∈ ids, owner.Below berth id)
      (Run.each body ids) fun _ => Underway program start opens := by
  have step : ∀ first rest, Yields (fun owner => Underway program start opens owner ∧
      ∀ id ∈ first :: rest, owner.Below berth id) (body first) fun _ owner =>
      Underway program start opens owner ∧ ∀ id ∈ rest, owner.Below berth id := by
    intro first rest
    refine (below_stays (one first) fun start => later start first).weaken ?_ fun _ _ held => held
    rintro owner ⟨underway, below⟩
    exact ⟨⟨underway, fun id listed => below id (.tail _ listed)⟩, below first (.head _)⟩
  exact (Yields.each (fun ids owner => Underway program start opens owner ∧
    ∀ id ∈ ids, owner.Below berth id) step ids).weaken (fun _ held => held) fun _ _ held => held.1

/-- Unmounting does not reach what is above, by induction on how deep it goes. -/
theorem unmount_underway (fuel : Nat) : ∀ berth id, Above opens berth.level →
    Yields (fun owner => Underway program start opens owner ∧ owner.Below berth id)
      (unmount fuel id : Building α Unit) fun _ => Underway program start opens := by
  induction fuel with
  | zero => exact fun _ _ _ => Yields.diverge
  | succ fuel ih =>
    intro berth id above
    refine Yields.read fun found => ?_
    cases found with
    | none => exact Yields.pure fun _ held => held.1.1
    | some element =>
      -- What is above the element is above its children, and is not the element.
      have deeper : berth.level ≤ element.depth → Above opens (element.depth + 1) :=
        fun deep frozen among => Nat.lt_succ_of_lt ((above frozen among).trans_le deep)
      have later : ∀ (start : BuildOwner α) ids, Keeps start.Later
          (Run.each (unmount fuel) ids : Building α Unit) := fun start ids =>
        Keeps.each ((later_lasting program start).durable.unmount fuel) ids
      rintro owner value last ⟨⟨underway, below⟩, mounted⟩ ran
      have deep := (below.2 element mounted).2
      have closed : ∀ frozen ∈ opens, frozen.id ≠ id := by
        rintro frozen among rfl
        obtain ⟨_, held, shows⟩ := underway.frozen frozen among
        cases mounted.symm.trans held
        have higher := above frozen among
        rw [← shows.depth] at higher
        omega
      have removed : Yields (Underway program start opens)
          (Run.change (·.removeElement id) : Building α Unit)
          fun _ => Underway program start opens := Yields.change fun owner underway =>
        underway.prune (remove_prunes owner id) fun frozen among there => by
          rwa [remove_isSome owner (closed frozen among)]
      have unmounted := fun ids => each_unmounted
        (fun child => ih ⟨some id, element.depth + 1⟩ child (deeper deep))
        (fun start id => (later_lasting program start).durable.unmount fuel id) ids
      refine Yields.bind (below_stays (unmounted element.children) fun start => later start _)
        (fun _ => Yields.bind (unmounted element.lazyKeptAliveChildren) fun _ => removed)
        owner value last ⟨⟨underway, fun child listed => ?_⟩, fun child listed => ?_⟩ ran
      · exact underway.nested id element mounted child (List.mem_append_right _ listed)
      · exact underway.nested id element mounted child (List.mem_append_left _ listed)

/-- Updates are under way, and these elements are below. -/
def Holding (program : Program α) (start : BuildOwner α) (opens : List (Frozen α)) (berth : Berth)
    (ids : List ElementId) (owner : BuildOwner α) : Prop :=
  Underway program start opens owner ∧ ∀ id ∈ ids, owner.Below berth id

theorem Holding.fewer {before after : List ElementId}
    (holding : Holding program start opens berth before owner) (fewer : after ⊆ before) :
    Holding program start opens berth after owner :=
  ⟨holding.1, fun id listed => holding.2 id (fewer listed)⟩

/-- Unmounting some of what is below. -/
theorem unmount_holding {before after ids : List ElementId} (fuel : Nat)
    (above : Above opens berth.level) (some' : ids ⊆ before) (others : after ⊆ before) :
    Yields (Holding program start opens berth before)
      (Run.each (unmount fuel) ids : Building α Unit)
      fun _ => Holding program start opens berth after := by
  have unmounted := each_unmounted
    (fun id => @unmount_underway α _ program start opens fuel berth id above)
    (fun start id => (later_lasting program start).durable.unmount fuel id) ids
  refine (below_stays unmounted fun start =>
    Keeps.each ((later_lasting program start).durable.unmount fuel) ids).weaken
      (fun owner holding => ?_) fun _ _ held => held
  exact ⟨holding.fewer others, (holding.fewer some').2⟩

theorem unmount_one_holding {before after : List ElementId} (fuel : Nat)
    (above : Above opens berth.level) (listed : id ∈ before) (others : after ⊆ before) :
    Yields (Holding program start opens berth before) (unmount fuel id : Building α Unit)
      fun _ => Holding program start opens berth after := by
  refine (below_stays (unmount_underway fuel berth id above) fun start =>
    (later_lasting program start).durable.unmount fuel id).weaken (fun owner holding => ?_)
      fun _ _ held => held
  exact ⟨holding.fewer others, holding.2 id listed⟩

end Dui
