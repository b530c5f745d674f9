import Dui.ReconcileClosure

/-! What an element keeps as long as it is mounted, whatever is done to the owner: its
type, its key and its place. An identity that is free stays so until it is issued. -/
namespace Dui
open Effect BuildOwner

variable {α : Type}

/-- The same element at a later time. -/
structure Element.Lasts (before after : Element α) : Prop where
  generation : after.generation = before.generation
  depth : after.depth = before.depth
  viewType : after.viewType = before.viewType
  key : after.key = before.key
  parent : after.parent = before.parent
  updateCount : before.updateCount ≤ after.updateCount

theorem Element.Lasts.refl (element : Element α) : element.Lasts element :=
  ⟨rfl, rfl, rfl, rfl, rfl, le_rfl⟩

theorem Element.Lasts.trans {first second third : Element α} (earlier : first.Lasts second)
    (later : second.Lasts third) : first.Lasts third :=
  ⟨later.generation.trans earlier.generation, later.depth.trans earlier.depth,
    later.viewType.trans earlier.viewType, later.key.trans earlier.key,
    later.parent.trans earlier.parent, earlier.updateCount.trans later.updateCount⟩

theorem Element.Akin.lasts {before after : Element α} (akin : before.Akin after) :
    before.Lasts after :=
  ⟨akin.generation, akin.depth, akin.viewType, akin.key, akin.parent, akin.updateCount⟩

/-- Every element mounted has been issued its identity. -/
def BuildOwner.Issued (owner : BuildOwner α) : Prop :=
  ∀ id, (owner.registry id).isSome → id < owner.nextId

/-- The owner at a later time: elements it had may have gone, and new ones have new
identities. -/
structure BuildOwner.Later (start owner : BuildOwner α) : Prop where
  nextId : start.nextId ≤ owner.nextId
  issued : owner.Issued
  elements : ∀ id after, id < start.nextId → owner.registry id = some after →
    ∃ before, start.registry id = some before ∧ before.Lasts after

namespace BuildOwner
variable {start owner next : BuildOwner α} {id : ElementId} {dependency : Dependency}

theorem Later.refl (issued : owner.Issued) : owner.Later owner :=
  ⟨le_rfl, issued, fun _ after _ held => ⟨after, held, .refl after⟩⟩

theorem Later.trans {last : BuildOwner α} (first : owner.Later next) (second : next.Later last) :
    owner.Later last := by
  refine ⟨first.nextId.trans second.nextId, second.issued, fun id after early held => ?_⟩
  obtain ⟨middle, held, later⟩ := second.elements id after (early.trans_le first.nextId) held
  obtain ⟨before, held, earlier⟩ := first.elements id middle early held
  exact ⟨before, held, earlier.trans later⟩

/-- No element is new. -/
structure Evolves (owner next : BuildOwner α) : Prop where
  nextId : next.nextId = owner.nextId
  elements : ∀ id after, next.registry id = some after →
    ∃ before, owner.registry id = some before ∧ before.Lasts after

theorem Evolves.refl (owner : BuildOwner α) : owner.Evolves owner :=
  ⟨rfl, fun _ after held => ⟨after, held, .refl after⟩⟩

theorem Evolves.trans {last : BuildOwner α} (first : owner.Evolves next)
    (second : next.Evolves last) : owner.Evolves last := by
  refine ⟨second.nextId.trans first.nextId, fun id after held => ?_⟩
  obtain ⟨middle, held, later⟩ := second.elements id after held
  obtain ⟨before, held, earlier⟩ := first.elements id middle held
  exact ⟨before, held, earlier.trans later⟩

theorem Later.evolve (later : start.Later owner) (evolves : owner.Evolves next) :
    start.Later next := by
  have issued : next.Issued := by
    intro id there
    obtain ⟨after, held⟩ := Option.isSome_iff_exists.mp there
    obtain ⟨before, held, _⟩ := evolves.elements id after held
    rw [evolves.nextId]
    exact later.issued id (by rw [held]; rfl)
  refine ⟨later.nextId.trans (le_of_eq evolves.nextId.symm), issued, fun id after early held => ?_⟩
  obtain ⟨middle, held, lasts⟩ := evolves.elements id after held
  obtain ⟨before, held, lasted⟩ := later.elements id middle early held
  exact ⟨before, held, lasted.trans lasts⟩

theorem Alike.evolves (alike : owner.Alike next) : owner.Evolves next := by
  refine ⟨alike.nextId, fun id after held => ?_⟩
  have there : (owner.registry id).isSome := by
    rw [← alike.mounted, held]
    rfl
  obtain ⟨before, there⟩ := Option.isSome_iff_exists.mp there
  exact ⟨before, there, (alike.elements id before after there held).lasts⟩

/-- Changing the sources alone. -/
theorem evolves_of_same (registry : next.registry = owner.registry)
    (nextId : next.nextId = owner.nextId) : owner.Evolves next := by
  refine ⟨nextId, fun id after held => ?_⟩
  rw [registry] at held
  exact ⟨after, held, .refl after⟩

/-- A relation between an element and what becomes of it that does not see its sources,
what it has read, its state, and whether it has been marked dirty. -/
structure Unseeing (related : Element α → Element α → Prop) : Prop where
  refl : ∀ element, related element element
  trans : ∀ {first second third}, related first second → related second third →
    related first third
  depends : ∀ element dependencies, related element { element with dependencies }
  reads : ∀ element reads, related element { element with reads }
  provides : ∀ element provided, related element { element with provided }
  state : ∀ element state, related element { element with state }
  marked : ∀ element, related element { element with dirty := true }

/-- The same elements, related to what they were. -/
structure Reworks (related : Element α → Element α → Prop) (owner next : BuildOwner α) : Prop where
  nextId : next.nextId = owner.nextId
  mounted : ∀ id, (next.registry id).isSome = (owner.registry id).isSome
  elements : ∀ id before after, owner.registry id = some before →
    next.registry id = some after → related before after

theorem Reworks.imp {related weaker : Element α → Element α → Prop}
    (reworks : Reworks related owner next)
    (imp : ∀ before after, related before after → weaker before after) :
    Reworks weaker owner next :=
  ⟨reworks.nextId, reworks.mounted,
    fun id before after held kept => imp _ _ (reworks.elements id before after held kept)⟩

section Unseen
variable {related : Element α → Element α → Prop} (unseeing : Unseeing related)
include unseeing

theorem Reworks.of_same (registry : next.registry = owner.registry)
    (nextId : next.nextId = owner.nextId) : Reworks related owner next := by
  refine ⟨nextId, fun id => by rw [registry], fun id before after held kept => ?_⟩
  rw [registry] at kept
  cases held.symm.trans kept
  exact unseeing.refl before

theorem Reworks.refl (owner : BuildOwner α) : Reworks related owner owner :=
  .of_same unseeing rfl rfl

theorem Reworks.trans {last : BuildOwner α} (first : Reworks related owner next)
    (second : Reworks related next last) : Reworks related owner last := by
  refine ⟨second.nextId.trans first.nextId, fun id => (second.mounted id).trans (first.mounted id),
    fun id before after held kept => ?_⟩
  have there : (next.registry id).isSome := by
    rw [first.mounted, held]
    rfl
  obtain ⟨middle, there⟩ := Option.isSome_iff_exists.mp there
  exact unseeing.trans (first.elements id before middle held there)
    (second.elements id middle after there kept)

theorem Reworks.update {f : Element α → Element α} (same : ∀ element, related element (f element)) :
    Reworks related owner (owner.updateElement id f) := by
  refine ⟨rfl, registry_update_isSome f, fun other before after held kept => ?_⟩
  obtain ⟨earlier, found, ⟨_, rfl⟩ | ⟨_, rfl⟩⟩ := update_element_cases kept
  · cases held.symm.trans found
    exact same before
  · cases held.symm.trans found
    exact unseeing.refl before

theorem Reworks.foldl {ι : Type} {step : BuildOwner α → ι → BuildOwner α}
    (reworks : ∀ (owner : BuildOwner α) item, Reworks related owner (step owner item))
    (items : List ι) : ∀ owner : BuildOwner α, Reworks related owner (items.foldl step owner) := by
  induction items with
  | nil => exact .refl unseeing
  | cons first rest ih => exact fun owner => .trans unseeing (reworks owner first) (ih _)

theorem mark_dirty_reworks (owner : BuildOwner α) (id : ElementId) (generation : Nat) :
    Reworks related owner (owner.markDirty id generation) := by
  unfold markDirty
  split
  · exact .refl unseeing owner
  · split
    · exact .refl unseeing owner
    · exact .trans unseeing (.update unseeing unseeing.marked) (.of_same unseeing rfl rfl)

theorem notify_reworks (owner : BuildOwner α) (dependency : Dependency) :
    Reworks related owner (owner.notifyDependents dependency) := by
  unfold notifyDependents
  split
  · exact .refl unseeing owner
  · exact .trans unseeing (.of_same unseeing rfl rfl : Reworks related owner
      (owner.updateSource dependency _)) (.foldl unseeing (fun owner (subscriber : Subscriber) =>
        mark_dirty_reworks unseeing owner subscriber.id subscriber.generation) _ _)

theorem write_reworks [DecidableEq α] (owner : BuildOwner α) (dependency : Dependency)
    (value : α) : Reworks related owner (owner.write dependency value) := by
  unfold write
  split
  · exact .refl unseeing owner
  · split
    · exact .refl unseeing owner
    · exact .trans unseeing (.of_same unseeing rfl rfl : Reworks related owner
        (owner.updateSource dependency _)) (notify_reworks unseeing _ dependency)

theorem observe_reworks (owner : BuildOwner α) (id : ElementId) (dependency : Dependency) :
    Reworks related owner (owner.observe id dependency) := by
  unfold observe
  split
  · exact .refl unseeing owner
  · split
    · exact .refl unseeing owner
    · exact .trans unseeing (.update unseeing fun element => unseeing.depends element _)
        (.of_same unseeing rfl rfl)

theorem clear_reworks (owner : BuildOwner α) (id : ElementId) :
    Reworks related owner (owner.clearDependencies id) := by
  unfold clearDependencies
  split
  · exact .refl unseeing owner
  · refine .trans unseeing (.foldl unseeing (fun owner dependency => ?_) _ owner)
      (.update unseeing fun element => ?_)
    · exact .of_same unseeing rfl rfl
    · exact unseeing.trans (unseeing.depends element []) (unseeing.reads _ [])

theorem drop_source_reworks (owner : BuildOwner α) (dependency : Dependency) :
    Reworks related owner (owner.dropSource dependency) := by
  refine .trans unseeing (?_ : Reworks related owner (owner.forgetSource dependency))
    (.of_same unseeing rfl rfl)
  unfold forgetSource
  split
  · exact .refl unseeing owner
  · refine .foldl unseeing (fun owner subscriber => ?_) _ owner
    unfold forgetDependency
    split
    · exact .refl unseeing owner
    · exact .update unseeing fun element => unseeing.depends element _

theorem set_environment_reworks [DecidableEq α] (program : Program α) (owner : BuildOwner α)
    (id : ElementId) (type : TypeToken) (value : α) :
    Reworks related owner (owner.setEnvironment program id type value) := by
  unfold setEnvironment
  split
  · exact .refl unseeing owner
  · exact write_reworks unseeing owner _ value
  · exact .trans unseeing (.update unseeing fun element => unseeing.provides element _)
      (.of_same unseeing rfl rfl)

theorem note_read_reworks (owner : BuildOwner α) (id : ElementId) (readable : Readable)
    (value : α) : Reworks related owner (owner.noteRead id readable value) :=
  .update unseeing fun element => unseeing.reads element _

theorem declare_state_reworks (owner : BuildOwner α) (id : ElementId) (slot : String)
    (initial : α) : Reworks related owner (owner.declareState id slot initial) :=
  .update unseeing fun element => unseeing.state element _

theorem write_state_reworks (owner : BuildOwner α) (handle : StateHandle) (value : α) :
    Reworks related owner (owner.writeState handle value) := by
  unfold writeState
  split
  · exact .refl unseeing owner
  · exact .trans unseeing (.update unseeing fun element => unseeing.state element _)
      (mark_dirty_reworks unseeing _ _ _)

/-! Builds. -/

theorem reworks_change {f : BuildOwner α → BuildOwner α}
    (reworks : ∀ owner : BuildOwner α, Reworks related owner (f owner)) :
    Keeps (Reworks related start) (Run.change f : Building α Unit) :=
  Keeps.change fun owner held => .trans unseeing held (reworks owner)

theorem read_dependency_reworks (dependency : Dependency) :
    Keeps (Reworks related start) (readDependency dependency : Building α α) := by
  intro owner outcome next held ran
  unfold readDependency at ran
  split at ran
  · cases ran
  · split at ran
    · cases ran
      exact held
    · cases ran
      exact .trans unseeing (.trans unseeing held (observe_reworks unseeing owner _ dependency))
        (note_read_reworks unseeing _ _ _ _)

theorem read_state_reworks (handle : StateHandle) :
    Keeps (Reworks related start) (readState handle : Building α α) := by
  intro owner outcome next held ran
  unfold readState at ran
  split at ran
  · cases ran
    exact held
  · split at ran
    · cases ran
      exact .trans unseeing held (note_read_reworks unseeing _ _ _ _)
    · cases ran
      exact held

variable [DecidableEq α]

theorem set_state_reworks (handle : StateHandle) (value : α) :
    Keeps (Reworks related start) (setState handle value) := by
  refine Keeps.bind Keeps.read fun current => Keeps.bind Keeps.resume fun current => ?_
  split
  · exact Keeps.pure
  · exact reworks_change unseeing fun owner => write_state_reworks unseeing owner handle value

/-- A build leaves the elements as far as the relation sees, one operation at a time. -/
theorem run_build_reworks (build : Build α) :
    Keeps (Reworks related start) (runBuild build) := by
  induction build with
  | done view => exact Keeps.pure
  | throw failure => exact Keeps.throw
  | get signal next ih => exact Keeps.bind (read_dependency_reworks unseeing _) ih
  | set signal value next ih =>
    exact Keeps.bind (reworks_change unseeing fun owner => write_reworks unseeing owner _ value)
      fun _ => ih
  | createSignal comparable value next ih =>
    refine Keeps.bind Keeps.read fun signal => Keeps.bind ?_ fun _ => ih signal
    exact reworks_change unseeing fun owner => .of_same unseeing rfl rfl
  | destroySignal signal next ih =>
    exact Keeps.bind (reworks_change unseeing fun owner => drop_source_reworks unseeing owner _)
      fun _ => ih
  | state slot comparable initial next ih =>
    rw [runBuild]
    refine Keeps.bind Keeps.read fun found => ?_
    split
    · exact Keeps.diverge
    · exact Keeps.bind (reworks_change unseeing fun owner =>
        declare_state_reworks unseeing owner _ slot initial) fun _ => ih _
  | getState handle next ih => exact Keeps.bind (read_state_reworks unseeing handle) ih
  | setState handle value next ih =>
    exact Keeps.bind (set_state_reworks unseeing handle value) fun _ => ih
  | environment type next ih =>
    rw [runBuild]
    refine Keeps.bind Keeps.read fun active => ?_
    split
    · exact Keeps.diverge
    · refine Keeps.bind Keeps.read fun provider => ?_
      split
      · exact Keeps.throw
      · exact Keeps.bind (read_dependency_reworks unseeing _) ih

theorem build_items_reworks (program : Program α) (type : TypeToken) (items : List (Key × α)) :
    ∀ views, Keeps (Reworks related start) (buildItems program type views items) := by
  induction items with
  | nil => exact fun _ => Keeps.pure
  | cons item items ih =>
    intro views
    rw [buildItems]
    split
    · exact Keeps.throw
    · exact Keeps.bind (run_build_reworks unseeing _) fun view => ih _

theorem build_lazy_items_reworks (program : Program α) (type : TypeToken)
    (items : List (Key × α)) : ∀ views,
    Keeps (Reworks related start) (buildLazyItems program type views items) := by
  induction items with
  | nil => exact fun _ => Keeps.pure
  | cons item items ih =>
    exact fun views => Keeps.bind (run_build_reworks unseeing _) fun view => ih _

end Unseen

theorem lasts_unseeing : Unseeing (Element.Lasts : Element α → Element α → Prop) where
  refl := .refl
  trans := .trans
  depends _ _ := ⟨rfl, rfl, rfl, rfl, rfl, le_rfl⟩
  reads _ _ := ⟨rfl, rfl, rfl, rfl, rfl, le_rfl⟩
  provides _ _ := ⟨rfl, rfl, rfl, rfl, rfl, le_rfl⟩
  state _ _ := ⟨rfl, rfl, rfl, rfl, rfl, le_rfl⟩
  marked _ := ⟨rfl, rfl, rfl, rfl, rfl, le_rfl⟩

theorem Reworks.evolves (reworks : Reworks Element.Lasts owner next) : owner.Evolves next := by
  refine ⟨reworks.nextId, fun id after held => ?_⟩
  have there : (owner.registry id).isSome := by
    rw [← reworks.mounted, held]
    rfl
  obtain ⟨before, there⟩ := Option.isSome_iff_exists.mp there
  exact ⟨before, there, reworks.elements id before after there held⟩

/-- The owner without one element. -/
theorem remove_evolves : owner.Evolves (owner.removeElement id) := by
  have erased : (owner.clearDependencies id).Evolves
      { owner.clearDependencies id with
        dirty := (owner.clearDependencies id).dirty.filter (· ≠ id)
        registry := fun other => if other = id then none
          else (owner.clearDependencies id).registry other
        unmountCount := (owner.clearDependencies id).unmountCount + 1 } := by
    refine ⟨rfl, fun other after held => ?_⟩
    simp only at held
    split at held
    · cases held
    · exact ⟨after, held, .refl after⟩
  exact ((clear_reworks lasts_unseeing owner id).evolves.trans erased).trans
    (Reworks.foldl lasts_unseeing (fun owner type => drop_source_reworks lasts_unseeing owner
      (.environment id type)) _ _).evolves

theorem Later.makeElement (later : start.Later owner) (viewType : ViewKind × TypeToken) (key : Key)
    (parent : Option ElementId) : start.Later (owner.makeElement viewType key parent) := by
  refine ⟨later.nextId.trans (Nat.le_succ _), fun id there => ?_, fun id after early held => ?_⟩
  · simp only [BuildOwner.makeElement] at there ⊢
    split at there
    case isTrue same => exact same ▸ Nat.lt_succ_self _
    case isFalse => exact Nat.lt_succ_of_lt (later.issued id there)
  · simp only [BuildOwner.makeElement] at held
    split at held
    case isTrue same => exact absurd early (not_lt.mpr (same ▸ later.nextId))
    case isFalse => exact later.elements id after early held

/-- Whatever is done to the owner, what it has become is later. -/
theorem later_lasting [DecidableEq α] (program : Program α) (start : BuildOwner α) :
    Lasting program start.Later where
  alike _ _ later alike := later.evolve alike.evolves
  write owner dependency value later :=
    later.evolve (write_reworks lasts_unseeing owner dependency value).evolves
  observe owner id dependency later _ :=
    later.evolve (observe_reworks lasts_unseeing owner id dependency).evolves
  clear owner id later := later.evolve (clear_reworks lasts_unseeing owner id).evolves
  createSignal _ _ _ later := later.evolve (evolves_of_same rfl rfl)
  destroySignal owner _ later := later.evolve (drop_source_reworks lasts_unseeing owner _).evolves
  makeElement _ viewType key parent later := later.makeElement viewType key parent
  removeElement _ _ later := later.evolve remove_evolves
  setEnvironment owner id type value later :=
    later.evolve (set_environment_reworks lasts_unseeing program owner id type value).evolves

end BuildOwner

end Dui
