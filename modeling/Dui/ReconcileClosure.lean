import Dui.BuildRuns

/-! What every primitive of the owner keeps, every computation of the build layer keeps,
whether it returns or throws. Where the bookkeeping of a rebuild is suspended this does
not apply; it does to whatever holds between any two primitives. -/
namespace Dui
open Effect BuildOwner

variable {α : Type}

/-- The element after a change that its sources do not see, and that leaves it what it is
and where it is. -/
structure Element.Akin (before after : Element α) : Prop where
  generation : after.generation = before.generation
  depth : after.depth = before.depth
  viewType : after.viewType = before.viewType
  key : after.key = before.key
  parent : after.parent = before.parent
  dependencies : after.dependencies = before.dependencies
  provided : after.provided = before.provided
  updateCount : before.updateCount ≤ after.updateCount

theorem Element.Akin.refl (element : Element α) : element.Akin element :=
  ⟨rfl, rfl, rfl, rfl, rfl, rfl, rfl, le_rfl⟩

theorem Element.Akin.trans {first second third : Element α} (earlier : first.Akin second)
    (later : second.Akin third) : first.Akin third :=
  ⟨later.generation.trans earlier.generation, later.depth.trans earlier.depth,
    later.viewType.trans earlier.viewType, later.key.trans earlier.key,
    later.parent.trans earlier.parent, later.dependencies.trans earlier.dependencies,
    later.provided.trans earlier.provided, earlier.updateCount.trans later.updateCount⟩

/-- The same sources, and the same elements up to what is akin. -/
structure BuildOwner.Alike (owner next : BuildOwner α) : Prop where
  sources : next.sources = owner.sources
  nextId : next.nextId = owner.nextId
  nextSignal : next.nextSignal = owner.nextSignal
  mounted : ∀ id, (next.registry id).isSome = (owner.registry id).isSome
  elements : ∀ id before after, owner.registry id = some before →
    next.registry id = some after → before.Akin after

/-- Every primitive keeps it. -/
structure Lasting [DecidableEq α] (program : Program α) (invariant : BuildOwner α → Prop) :
    Prop where
  alike : ∀ owner next, invariant owner → owner.Alike next → invariant next
  write : ∀ owner dependency value, invariant owner → invariant (owner.write dependency value)
  observe : ∀ owner id dependency, invariant owner → (owner.sources dependency).isSome →
    invariant (owner.observe id dependency)
  clear : ∀ owner id, invariant owner → invariant (owner.clearDependencies id)
  createSignal : ∀ owner comparable value, invariant owner →
    invariant (owner.createSignal comparable value)
  destroySignal : ∀ owner signal, invariant owner → invariant (owner.dropSource (.signal signal))
  makeElement : ∀ owner viewType key parent, invariant owner →
    invariant (owner.makeElement viewType key parent)
  removeElement : ∀ owner id, invariant owner → invariant (owner.removeElement id)
  setEnvironment : ∀ owner id type value, invariant owner →
    invariant (owner.setEnvironment program id type value)

theorem BuildOwner.Alike.refl (owner : BuildOwner α) : owner.Alike owner := by
  refine ⟨rfl, rfl, rfl, fun _ => rfl, fun id before after held kept => ?_⟩
  cases held.symm.trans kept
  exact .refl before

theorem BuildOwner.Alike.trans {owner next last : BuildOwner α} (first : owner.Alike next)
    (second : next.Alike last) : owner.Alike last := by
  refine ⟨second.sources.trans first.sources, second.nextId.trans first.nextId,
    second.nextSignal.trans first.nextSignal,
    fun id => (second.mounted id).trans (first.mounted id), fun id before after held kept => ?_⟩
  have there : (next.registry id).isSome := by
    rw [first.mounted, held]
    rfl
  obtain ⟨middle, there⟩ := Option.isSome_iff_exists.mp there
  exact (first.elements id before middle held there).trans
    (second.elements id middle after there kept)

/-- Changing the owner where no element or source is concerned. -/
theorem alike_of_same {owner next : BuildOwner α} (registry : next.registry = owner.registry)
    (sources : next.sources = owner.sources) (nextId : next.nextId = owner.nextId)
    (nextSignal : next.nextSignal = owner.nextSignal) : owner.Alike next := by
  refine ⟨sources, nextId, nextSignal, fun id => ?_, fun id before after held kept => ?_⟩
  · rw [registry]
  · rw [registry] at kept
    cases held.symm.trans kept
    exact .refl before

/-- Changing one element in what its sources do not see. -/
theorem update_element_alike {owner : BuildOwner α} {id : ElementId} {f : Element α → Element α}
    (same : ∀ element : Element α, element.Akin (f element)) :
    owner.Alike (owner.updateElement id f) := by
  refine ⟨rfl, rfl, rfl, registry_update_isSome f, fun other before after held kept => ?_⟩
  obtain ⟨earlier, found, ⟨_, rfl⟩ | ⟨_, rfl⟩⟩ := update_element_cases kept
  · cases held.symm.trans found
    exact same before
  · cases held.symm.trans found
    exact .refl before

theorem mark_dirty_alike (owner : BuildOwner α) (id : ElementId) (generation : Nat) :
    owner.Alike (owner.markDirty id generation) := by
  unfold markDirty
  split
  · exact .refl owner
  · split
    · exact .refl owner
    · have marked : owner.Alike
          (owner.updateElement id fun element => { element with dirty := true }) :=
        update_element_alike fun _ => ⟨rfl, rfl, rfl, rfl, rfl, rfl, rfl, le_rfl⟩
      exact marked.trans (alike_of_same rfl rfl rfl rfl)

/-- The same sources and the same elements, with their states; nothing is mounted or
unmounted. -/
structure BuildOwner.Steady (owner next : BuildOwner α) : Prop where
  alike : owner.Alike next
  mountCount : next.mountCount = owner.mountCount
  unmountCount : next.unmountCount = owner.unmountCount
  states : ∀ id before after, owner.registry id = some before →
    next.registry id = some after → after.state = before.state

/-- Every primitive keeps it, where what is done to the state of an element is a
primitive of its own. -/
structure Durable [DecidableEq α] (program : Program α) (invariant : BuildOwner α → Prop) :
    Prop where
  steady : ∀ owner next, invariant owner → owner.Steady next → invariant next
  declareState : ∀ owner id slot initial, invariant owner →
    invariant (owner.declareState id slot initial)
  writeState : ∀ owner handle value, invariant owner → invariant (owner.writeState handle value)
  write : ∀ owner dependency value, invariant owner → invariant (owner.write dependency value)
  observe : ∀ owner id dependency, invariant owner → (owner.sources dependency).isSome →
    invariant (owner.observe id dependency)
  clear : ∀ owner id, invariant owner → invariant (owner.clearDependencies id)
  createSignal : ∀ owner comparable value, invariant owner →
    invariant (owner.createSignal comparable value)
  destroySignal : ∀ owner signal, invariant owner → invariant (owner.dropSource (.signal signal))
  makeElement : ∀ owner viewType key parent, invariant owner →
    invariant (owner.makeElement viewType key parent)
  removeElement : ∀ owner id, invariant owner → invariant (owner.removeElement id)
  setEnvironment : ∀ owner id type value, invariant owner →
    invariant (owner.setEnvironment program id type value)

theorem write_state_alike (owner : BuildOwner α) (handle : StateHandle) (value : α) :
    owner.Alike (owner.writeState handle value) := by
  unfold writeState
  split
  · exact .refl owner
  · refine .trans ?_ (mark_dirty_alike _ handle.element handle.generation)
    exact update_element_alike fun _ => ⟨rfl, rfl, rfl, rfl, rfl, rfl, rfl, le_rfl⟩

/-- What every change of the elements keeps, the finer changes keep. -/
theorem Lasting.durable [DecidableEq α] {program : Program α} {invariant : BuildOwner α → Prop}
    (lasting : Lasting program invariant) : Durable program invariant where
  steady owner next held steady := lasting.alike owner next held steady.alike
  declareState owner _ _ _ held := lasting.alike owner _ held
    (update_element_alike fun _ => ⟨rfl, rfl, rfl, rfl, rfl, rfl, rfl, le_rfl⟩)
  writeState owner handle value held :=
    lasting.alike owner _ held (write_state_alike owner handle value)
  write := lasting.write
  observe := lasting.observe
  clear := lasting.clear
  createSignal := lasting.createSignal
  destroySignal := lasting.destroySignal
  makeElement := lasting.makeElement
  removeElement := lasting.removeElement
  setEnvironment := lasting.setEnvironment

namespace BuildOwner.Steady

theorem refl (owner : BuildOwner α) : owner.Steady owner := by
  refine ⟨.refl owner, rfl, rfl, fun id before after held kept => ?_⟩
  cases held.symm.trans kept
  rfl

theorem trans {owner next last : BuildOwner α} (first : owner.Steady next)
    (second : next.Steady last) : owner.Steady last := by
  refine ⟨first.alike.trans second.alike, second.mountCount.trans first.mountCount,
    second.unmountCount.trans first.unmountCount, fun id before after held kept => ?_⟩
  have there : (next.registry id).isSome := by
    rw [first.alike.mounted, held]
    rfl
  obtain ⟨middle, there⟩ := Option.isSome_iff_exists.mp there
  exact (second.states id middle after there kept).trans (first.states id before middle held there)

end BuildOwner.Steady

theorem steady_of_same {owner next : BuildOwner α} (registry : next.registry = owner.registry)
    (sources : next.sources = owner.sources) (nextId : next.nextId = owner.nextId)
    (nextSignal : next.nextSignal = owner.nextSignal) (mountCount : next.mountCount =
      owner.mountCount) (unmountCount : next.unmountCount = owner.unmountCount) :
    owner.Steady next := by
  refine ⟨alike_of_same registry sources nextId nextSignal, mountCount, unmountCount,
    fun id before after held kept => ?_⟩
  rw [registry] at kept
  cases held.symm.trans kept
  rfl

theorem update_element_steady {owner : BuildOwner α} {id : ElementId} {f : Element α → Element α}
    (same : ∀ element : Element α, element.Akin (f element) ∧ (f element).state = element.state) :
    owner.Steady (owner.updateElement id f) := by
  refine ⟨update_element_alike fun element => (same element).1, rfl, rfl,
    fun other before after held kept => ?_⟩
  obtain ⟨earlier, found, ⟨_, rfl⟩ | ⟨_, rfl⟩⟩ := update_element_cases kept
  · cases held.symm.trans found
    exact (same before).2
  · cases held.symm.trans found
    rfl

namespace Durable
variable [DecidableEq α] {program : Program α} {invariant : BuildOwner α → Prop}
  (durable : Durable program invariant)
include durable

theorem change {f : BuildOwner α → BuildOwner α}
    (steady : ∀ owner : BuildOwner α, owner.Steady (f owner)) :
    Keeps invariant (Run.change f : Building α Unit) :=
  Keeps.change fun owner held => durable.steady owner _ held (steady owner)

theorem reshape (id : ElementId) {f : Element α → Element α}
    (same : ∀ element : Element α, element.Akin (f element) ∧
      (f element).state = element.state) :
    Keeps invariant (Run.change (·.updateElement id f) : Building α Unit) :=
  durable.change fun _ => update_element_steady same

theorem read_dependency (dependency : Dependency) :
    Keeps invariant (readDependency dependency : Building α α) := by
  intro owner outcome next held ran
  unfold readDependency at ran
  split at ran
  · cases ran
  · rename_i source present
    split at ran
    · cases ran
      exact held
    · cases ran
      refine durable.steady _ _ (durable.observe owner _ dependency held ?_)
        (update_element_steady fun _ => ⟨⟨rfl, rfl, rfl, rfl, rfl, rfl, rfl, le_rfl⟩, rfl⟩)
      rw [present]
      rfl

theorem read_state (handle : StateHandle) : Keeps invariant (readState handle : Building α α) := by
  intro owner outcome next held ran
  unfold readState at ran
  split at ran
  · cases ran
    exact held
  · split at ran
    · cases ran
      exact durable.steady owner _ held
        (update_element_steady fun _ => ⟨⟨rfl, rfl, rfl, rfl, rfl, rfl, rfl, le_rfl⟩, rfl⟩)
    · cases ran
      exact held

theorem set_state (handle : StateHandle) (value : α) : Keeps invariant (setState handle value) := by
  refine Keeps.bind Keeps.read fun current => Keeps.bind Keeps.resume fun current => ?_
  split
  · exact Keeps.pure
  · exact Keeps.change fun owner => durable.writeState owner handle value

/-- A build keeps it, one operation at a time. -/
theorem run_build (build : Build α) : Keeps invariant (runBuild build) := by
  induction build with
  | done view => exact Keeps.pure
  | throw failure => exact Keeps.throw
  | get signal next ih => exact Keeps.bind (durable.read_dependency _) ih
  | set signal value next ih =>
    exact Keeps.bind (Keeps.change fun owner => durable.write owner _ value) fun _ => ih
  | createSignal comparable value next ih =>
    refine Keeps.bind Keeps.read fun signal => Keeps.bind ?_ fun _ => ih signal
    exact Keeps.change fun owner => durable.createSignal owner comparable value
  | destroySignal signal next ih =>
    exact Keeps.bind (Keeps.change fun owner => durable.destroySignal owner signal) fun _ => ih
  | state slot comparable initial next ih =>
    rw [runBuild]
    refine Keeps.bind Keeps.read fun found => ?_
    split
    · exact Keeps.diverge
    · exact Keeps.bind (Keeps.change fun owner => durable.declareState owner _ slot initial)
        fun _ => ih _
  | getState handle next ih => exact Keeps.bind (durable.read_state handle) ih
  | setState handle value next ih => exact Keeps.bind (durable.set_state handle value) fun _ => ih
  | environment type next ih =>
    rw [runBuild]
    refine Keeps.bind Keeps.read fun active => ?_
    split
    · exact Keeps.diverge
    · refine Keeps.bind Keeps.read fun provider => ?_
      split
      · exact Keeps.throw
      · exact Keeps.bind (durable.read_dependency _) ih

theorem unmount (fuel : Nat) : ∀ id, Keeps invariant (Dui.unmount fuel id : Building α Unit) := by
  induction fuel with
  | zero => exact fun _ => Keeps.diverge
  | succ fuel ih =>
    intro id
    refine Keeps.bind Keeps.read fun found => ?_
    split
    · exact Keeps.pure
    · refine Keeps.bind (Keeps.each ih _) fun _ => Keeps.bind (Keeps.each ih _) fun _ => ?_
      exact Keeps.change fun owner => durable.removeElement owner id

theorem set_children (id : ElementId) (children : List ElementId) :
    Keeps invariant (setChildren id children : Building α Unit) :=
  durable.reshape id fun _ => ⟨⟨rfl, rfl, rfl, rfl, rfl, rfl, rfl, le_rfl⟩, rfl⟩

theorem set_kept_alive (id : ElementId) (kept : List ElementId) :
    Keeps invariant (setKeptAlive id kept : Building α Unit) :=
  durable.reshape id fun _ => ⟨⟨rfl, rfl, rfl, rfl, rfl, rfl, rfl, le_rfl⟩, rfl⟩

theorem build_items (type : TypeToken) (items : List (Key × α)) :
    ∀ views, Keeps invariant (buildItems program type views items) := by
  induction items with
  | nil => exact fun _ => Keeps.pure
  | cons item items ih =>
    intro views
    rw [buildItems]
    split
    · exact Keeps.throw
    · exact Keeps.bind (durable.run_build _) fun view => ih _

theorem build_lazy_items (type : TypeToken) (items : List (Key × α)) :
    ∀ views, Keeps invariant (buildLazyItems program type views items) := by
  induction items with
  | nil => exact fun _ => Keeps.pure
  | cons item items ih => exact fun views => Keeps.bind (durable.run_build _) fun view => ih _

theorem with_scope {β : Type} {id : ElementId} {run : Building α β} (kept : Keeps invariant run) :
    Keeps invariant (withScope id run) := by
  have inert : ∀ active, Keeps invariant
      (Run.change fun owner => { owner with active } : Building α Unit) :=
    fun active => durable.change fun _ => steady_of_same rfl rfl rfl rfl rfl rfl
  exact Keeps.bind Keeps.read fun previous => Keeps.bind (inert _) fun _ =>
    Keeps.bind (Keeps.attempt kept) fun outcome => Keeps.bind (inert _) fun _ => Keeps.resume

section Reconciling
variable {reconcile : Reconciler α}
  (kept : ∀ slot view parent key, Keeps invariant (reconcile slot view parent key)) (fuel : Nat)
include kept

theorem update_static_children (id : ElementId) (views : List (View α)) : ∀ done rest,
    Keeps invariant (updateStaticChildren reconcile fuel id done views rest) := by
  induction views with
  | nil =>
    exact fun done rest => Keeps.bind (Keeps.each (durable.unmount fuel) _) fun _ =>
      durable.set_children id done
  | cons view views ih =>
    exact fun done rest => Keeps.bind (kept _ _ _ _) fun (child, outcome) =>
      Keeps.bind (durable.set_children id _) fun _ => Keeps.bind Keeps.resume fun _ => ih _ _

theorem update_first_child (id : ElementId) (view : View α) :
    Keeps invariant (updateFirstChild reconcile id view) :=
  Keeps.bind Keeps.read fun _ => Keeps.bind (kept _ _ _ _) fun _ =>
    Keeps.bind (durable.set_children id _) fun _ => Keeps.bind Keeps.resume fun _ => Keeps.pure

theorem update_only_child (id : ElementId) (view : View α) :
    Keeps invariant (updateOnlyChild reconcile fuel id view) :=
  Keeps.bind Keeps.read fun _ => Keeps.bind (durable.update_first_child kept id view)
    fun _ => Keeps.bind (Keeps.each (durable.unmount fuel) _) fun _ =>
      durable.set_children id _

omit kept in
theorem drop_first_child (id : ElementId) :
    Keeps invariant (dropFirstChild fuel id : Building α Unit) := by
  refine Keeps.bind Keeps.read fun children => ?_
  split
  · exact Keeps.pure
  · exact Keeps.bind (durable.unmount fuel _) fun _ => durable.set_children id _

theorem reconcile_items (id : ElementId) (items : List (Key × View α)) : ∀ next previous,
    Keeps invariant (reconcileItems reconcile fuel id next previous items) := by
  induction items with
  | nil => exact fun _ _ => Keeps.pure
  | cons item items ih =>
    intro next previous
    refine Keeps.bind Keeps.read fun found => Keeps.bind (kept _ _ _ _) fun (child, outcome) => ?_
    cases outcome with
    | error failure =>
      refine Keeps.bind (durable.unmount fuel child) fun _ => ?_
      refine Keeps.bind (Keeps.each (durable.unmount fuel) _) fun _ => ?_
      exact Keeps.bind (Keeps.each (durable.unmount fuel) _) fun _ =>
        Keeps.bind (durable.set_children id _) fun _ => Keeps.throw
    | ok => exact ih _ _

theorem update_for_each (id : ElementId) (type : TypeToken) (items : List (Key × α)) :
    Keeps invariant (updateForEach program reconcile fuel id type items) :=
  Keeps.bind (durable.build_items type items _) fun views => Keeps.bind Keeps.read
    fun _ => Keeps.bind (durable.set_children id _) fun _ =>
      Keeps.bind (durable.reconcile_items kept fuel id views _ _) fun _ =>
        Keeps.bind (Keeps.each (durable.unmount fuel) _) fun _ => durable.set_children id _

theorem rebuild (id : ElementId) : Keeps invariant (Dui.rebuild program reconcile fuel id) := by
  refine Keeps.bind (Keeps.change fun owner => durable.clear owner id) fun _ =>
    durable.with_scope (Keeps.bind Keeps.read fun found => ?_)
  split
  · exact Keeps.diverge
  · exact Keeps.bind (durable.run_build _) fun view => durable.update_only_child kept fuel id view

theorem update_component (id : ElementId) (type : TypeToken) (descriptor : α) :
    Keeps invariant (updateComponent program reconcile fuel id type descriptor) := by
  refine Keeps.bind Keeps.read fun equivalent =>
    Keeps.bind (durable.reshape id
        fun _ => ⟨⟨rfl, rfl, rfl, rfl, rfl, rfl, rfl, le_rfl⟩, rfl⟩) fun _ =>
      Keeps.bind Keeps.read fun rebuildingDirty => ?_
  split
  · exact Keeps.pure
  · exact Keeps.bind (durable.reshape id
        fun _ => ⟨⟨rfl, rfl, rfl, rfl, rfl, rfl, rfl, le_rfl⟩, rfl⟩) fun _ =>
      durable.rebuild kept fuel id

omit kept in
theorem enforce_limit (id : ElementId) :
    Keeps invariant (enforceLazyKeepAliveLimit fuel id : Building α Unit) := by
  refine Keeps.bind Keeps.read fun found => ?_
  split
  · exact Keeps.pure
  · split
    · exact Keeps.pure
    · exact Keeps.bind (Keeps.each (durable.unmount fuel) _) fun _ => durable.set_kept_alive id _

omit kept in
theorem update_lazy_list (id : ElementId) (model : LazyModel α) :
    Keeps invariant (updateLazyList fuel id model) :=
  Keeps.bind (durable.reshape id
      fun _ => ⟨⟨rfl, rfl, rfl, rfl, rfl, rfl, rfl, le_rfl⟩, rfl⟩) fun _ =>
    Keeps.bind Keeps.read fun _ => Keeps.bind Keeps.read fun _ =>
      Keeps.bind (Keeps.each (durable.unmount fuel) _) fun _ =>
        Keeps.bind (durable.set_kept_alive id _) fun _ => durable.enforce_limit fuel id

theorem update_view (id : ElementId) (view : View α) :
    Keeps invariant (updateView program reconcile fuel id view) := by
  cases view with
  | component type descriptor => exact durable.update_component kept fuel id type descriptor
  | leaf type rejected value =>
    refine Keeps.bind (durable.reshape id
        fun _ => ⟨⟨rfl, rfl, rfl, rfl, rfl, rfl, rfl, le_rfl⟩, rfl⟩) fun _ => ?_
    cases rejected with
    | some failure => exact Keeps.throw
    | none =>
      exact Keeps.bind Keeps.read fun children =>
        Keeps.bind (Keeps.each (durable.unmount fuel) _) fun _ => durable.set_children id _
  | group type rejected views =>
    cases rejected with
    | some failure => exact Keeps.throw
    | none =>
      exact Keeps.bind Keeps.read fun children =>
        durable.update_static_children kept fuel id views _ _
  | single type rejected child =>
    cases rejected with
    | some failure => exact Keeps.throw
    | none => exact Keeps.bind (durable.update_first_child kept id child) fun _ => Keeps.pure
  | environment type values child =>
    refine Keeps.bind (Keeps.each (fun value => ?_) _) fun _ =>
      durable.update_only_child kept fuel id child
    exact Keeps.change fun owner => durable.setEnvironment owner id _ _
  | optional type child =>
    cases child with
    | none => exact durable.drop_first_child fuel id
    | some child =>
      exact Keeps.bind (durable.update_first_child kept id child) fun _ => Keeps.pure
  | choice type branch child =>
    have chosen : Keeps invariant (do
        Run.change (·.updateElement id fun element => { element with activeBranch := some branch })
        let _ ← updateFirstChild reconcile id child) :=
      Keeps.bind (durable.reshape id
          fun _ => ⟨⟨rfl, rfl, rfl, rfl, rfl, rfl, rfl, le_rfl⟩, rfl⟩) fun _ =>
        Keeps.bind (durable.update_first_child kept id child) fun _ => Keeps.pure
    refine Keeps.bind Keeps.read fun switched => ?_
    simp only
    split
    · exact Keeps.bind (durable.drop_first_child fuel id) fun _ => chosen
    · exact chosen
  | forEach type items => exact durable.update_for_each kept fuel id type items
  | lazyList type rejected items keepAliveKeys keepAliveLimit =>
    cases rejected with
    | some failure => exact Keeps.throw
    | none => exact durable.update_lazy_list fuel id _

/-- The update of the element that a view is reconciled with. -/
theorem update_child (id : ElementId) (view : View α) : Keeps invariant (do
    Run.change (·.beginUpdate id)
    let outcome ← Run.attempt (updateView program reconcile fuel id view)
    Run.change (·.endUpdate id)
    pure (id, outcome)) := by
  refine Keeps.bind (durable.change fun owner => ?_) fun _ =>
    Keeps.bind (Keeps.attempt (durable.update_view kept fuel id view)) fun outcome =>
      Keeps.bind (durable.reshape id
        fun _ => ⟨⟨rfl, rfl, rfl, rfl, rfl, rfl, rfl, le_rfl⟩, rfl⟩) fun _ => Keeps.pure
  have begun : owner.Steady (owner.updateElement id fun element =>
      { element with
        updateCount := element.updateCount + 1
        rebuildingDirty := element.dirty
        dirty := false }) :=
    update_element_steady fun _ =>
      ⟨⟨rfl, rfl, rfl, rfl, rfl, rfl, rfl, Nat.le_succ _⟩, rfl⟩
  exact begun.trans (steady_of_same rfl rfl rfl rfl rfl rfl)

theorem realize_items (id : ElementId) (items : List (Key × View α)) : ∀ children,
    Keeps invariant (realizeItems reconcile fuel id children items) := by
  induction items with
  | nil => exact fun _ => Keeps.pure
  | cons item items ih =>
    intro children
    refine Keeps.bind Keeps.read fun (found, children) =>
      Keeps.bind (kept _ _ _ _) fun (child, outcome) => ?_
    cases outcome with
    | error failure =>
      refine Keeps.bind (durable.unmount fuel child) fun _ => ?_
      refine Keeps.bind (Keeps.each (durable.unmount fuel) _) fun _ => ?_
      refine Keeps.bind (Keeps.each (durable.unmount fuel) _) fun _ => ?_
      refine Keeps.bind (Keeps.each (durable.unmount fuel) _) fun _ => ?_
      exact Keeps.bind (durable.set_children id _) fun _ =>
        Keeps.bind (durable.set_kept_alive id _) fun _ => Keeps.throw
    | ok => exact ih _

end Reconciling

/-- Reconciling keeps it, by induction on how deep it may go. -/
theorem reconcile_child (fuel : Nat) : ∀ slot view parent key,
    Keeps invariant (reconcileChild program fuel slot view parent key) := by
  induction fuel with
  | zero => exact fun _ _ _ _ => Keeps.diverge
  | succ fuel ih =>
    intro slot view parent key
    have mount : Keeps invariant (do
        let id ← Run.read (·.nextId)
        Run.change (·.makeElement view.token key parent)
        Run.change (·.beginUpdate id)
        let outcome ← Run.attempt (updateView program (reconcileChild program fuel) fuel id view)
        Run.change (·.endUpdate id)
        pure (id, outcome)) :=
      Keeps.bind Keeps.read fun id => Keeps.bind
        (Keeps.change fun owner => durable.makeElement owner _ _ _)
        fun _ => durable.update_child ih fuel id view
    rw [reconcileChild]
    refine Keeps.bind Keeps.read fun reusable => ?_
    cases reusable with
    | some id => exact durable.update_child ih fuel id view
    | none =>
      cases slot with
      | none => exact mount
      | some old => exact Keeps.bind (durable.unmount fuel old) fun _ => mount

/-! Whole operations. -/

theorem exclusively {β : Type} {refusal : Failure} {run : Building α β}
    (kept : Keeps invariant run) : Keeps invariant (Dui.exclusively refusal run) := by
  have inert : ∀ reconciling, Keeps invariant
      (Run.change fun owner => { owner with reconciling } : Building α Unit) :=
    fun _ => durable.change fun _ => steady_of_same rfl rfl rfl rfl rfl rfl
  refine Keeps.bind Keeps.read fun busy => ?_
  split
  · exact Keeps.throw
  · exact Keeps.bind (inert _) fun _ => Keeps.bind (Keeps.attempt kept) fun outcome =>
      Keeps.bind (inert _) fun _ => Keeps.resume

theorem render (fuel : Nat) (view : View α) : Keeps invariant (Dui.render program fuel view) := by
  refine durable.exclusively (Keeps.bind Keeps.read fun root =>
    Keeps.bind (durable.reconcile_child fuel _ view _ _) fun (id, outcome) => ?_)
  exact Keeps.bind (durable.change fun _ => steady_of_same rfl rfl rfl rfl rfl rfl)
    fun _ => Keeps.resume

theorem flush_element (fuel : Nat) (id : ElementId) :
    Keeps invariant (flushElement program fuel id) := by
  refine Keeps.bind Keeps.read fun needed => ?_
  split
  · exact Keeps.bind (durable.reshape id
      fun _ => ⟨⟨rfl, rfl, rfl, rfl, rfl, rfl, rfl, le_rfl⟩, rfl⟩)
      fun _ => durable.rebuild (durable.reconcile_child fuel) fuel id
  · exact Keeps.pure

theorem flush_loop (fuel rounds : Nat) : Keeps invariant (flushLoop program fuel rounds) := by
  induction rounds with
  | zero => exact Keeps.diverge
  | succ rounds ih =>
    refine Keeps.bind Keeps.read fun pending => ?_
    split
    · exact Keeps.pure
    · refine Keeps.bind (durable.change fun _ => steady_of_same rfl rfl rfl rfl rfl rfl) fun _ => ?_
      exact Keeps.bind (Keeps.each (durable.flush_element fuel) _) fun _ => ih

theorem flush (fuel : Nat) : Keeps invariant (Dui.flush program fuel) :=
  durable.exclusively (durable.flush_loop fuel fuel)

/-! Frames. -/

theorem retain_or_unmount (fuel : Nat) (keys : List Key) (children : List ElementId) :
    ∀ retained, Keeps invariant
      (retainOrUnmount fuel keys retained children : Building α (List ElementId)) := by
  induction children with
  | nil => exact fun _ => Keeps.pure
  | cons child children ih =>
    intro retained
    refine Keeps.bind Keeps.read fun key => ?_
    split
    · exact ih _
    · exact Keeps.bind (durable.unmount fuel child) fun _ => ih _

theorem realize_range (fuel : Nat) (id : ElementId) (type : TypeToken) (model : LazyModel α)
    (keptAlive : List ElementId) (range : ChildRange) :
    Keeps invariant (realizeRange program fuel id type model keptAlive range) := by
  unfold realizeRange
  split
  · exact Keeps.throw
  · refine Keeps.bind (durable.build_lazy_items type _ _) fun views => ?_
    refine Keeps.bind Keeps.read fun previous => Keeps.bind (durable.set_children id _) fun _ => ?_
    refine Keeps.bind (durable.set_kept_alive id _) fun _ => Keeps.bind
      (durable.realize_items (durable.reconcile_child fuel) fuel id views _) fun children => ?_
    refine Keeps.bind (durable.retain_or_unmount fuel _ _ _) fun retained =>
      Keeps.bind (durable.retain_or_unmount fuel _ _ _) fun retained => ?_
    exact Keeps.bind (durable.set_children id _) fun _ =>
      Keeps.bind (durable.set_kept_alive id _) fun _ => durable.enforce_limit fuel id

theorem realize_lazy_children (requests : ElementId → Option ChildRange) (fuel : Nat) : ∀ id,
    Keeps invariant (realizeLazyChildren program requests fuel id) := by
  induction fuel with
  | zero => exact fun _ => Keeps.diverge
  | succ fuel ih =>
    intro id
    have below : ∀ realized, Keeps invariant (do
        let children ← childrenOf id
        let below ← Run.anyOf (realizeLazyChildren program requests fuel) children
        pure (realized || below)) :=
      fun _ => Keeps.bind Keeps.read fun _ => Keeps.bind (Keeps.anyOf ih _) fun _ => Keeps.pure
    rw [realizeLazyChildren]
    refine Keeps.bind Keeps.read fun found => ?_
    split
    · exact Keeps.pure
    · simp only
      split
      · exact Keeps.bind (durable.realize_range fuel id _ _ _ _) fun _ => below true
      · exact below false

theorem realize_requests (fuel : Nat) (requests : ElementId → Option ChildRange) :
    Keeps invariant (realizeRequests program fuel requests) := by
  refine Keeps.bind (durable.exclusively (Keeps.bind Keeps.read fun root => ?_)) fun realized => ?_
  · split
    · exact Keeps.pure
    · exact durable.realize_lazy_children requests fuel _
  · split
    · exact Keeps.pure
    · exact Keeps.throw

omit [DecidableEq α] durable in
theorem lay_out (renderer : Renderer α) (fuel rounds : Nat) :
    Keeps invariant (layOut renderer fuel rounds) := by
  have pending : ∀ requests fuel id,
      Keeps invariant (hasPendingLazyChildren requests fuel id : Building α Bool) := by
    intro requests fuel
    induction fuel with
    | zero => exact fun _ => Keeps.diverge
    | succ fuel ih =>
      intro id
      refine Keeps.bind Keeps.read fun found => ?_
      split
      · exact Keeps.pure
      · split
        · exact Keeps.pure
        · exact Keeps.anyOf ih _
  refine Keeps.bind Keeps.read fun requests => Keeps.bind Keeps.resume fun requests =>
    Keeps.bind Keeps.read fun root => ?_
  split
  · exact Keeps.pure
  · refine Keeps.bind (pending requests fuel _) fun found => ?_
    split
    · exact Keeps.pure
    · exact Keeps.pure

theorem frame_loop (renderer : Renderer α) (fuel rounds : Nat) :
    Keeps invariant (frameLoop program renderer (Dui.flush program fuel) fuel rounds) := by
  have composite : Keeps invariant (compositeFrame renderer) :=
    Keeps.bind Keeps.read fun _ => Keeps.resume
  induction rounds with
  | zero =>
    refine Keeps.bind (lay_out renderer fuel 0) fun requests => ?_
    split
    · exact composite
    · exact Keeps.throw
  | succ rounds ih =>
    rw [frameLoop]
    refine Keeps.bind (lay_out renderer fuel (rounds + 1)) fun requests => ?_
    split
    · exact composite
    · exact Keeps.bind (durable.realize_requests fuel _) fun _ =>
        Keeps.bind (durable.flush fuel) fun _ => ih

theorem layer_frame (renderer : Renderer α) (fuel : Nat) :
    Keeps invariant (layerFrameWith program renderer (Dui.flush program fuel) fuel) := by
  have inert : ∀ framing, Keeps invariant
      (Run.change fun owner => { owner with framing } : Building α Unit) :=
    fun _ => durable.change fun _ => steady_of_same rfl rfl rfl rfl rfl rfl
  refine Keeps.bind Keeps.read fun framing => ?_
  split
  · exact Keeps.throw
  · refine Keeps.bind (inert true) fun _ => Keeps.bind (Keeps.attempt ?_) fun outcome =>
      Keeps.bind (inert false) fun _ => Keeps.resume
    exact Keeps.bind (durable.flush fuel) fun _ => durable.frame_loop renderer fuel _

/-- Every call keeps it. -/
theorem perform (fuel : Nat) (call : Call α) : Keeps invariant (Dui.perform program fuel call) := by
  cases call with
  | render view => exact durable.render fuel view
  | flush => exact durable.flush fuel
  | layerFrame renderer => exact durable.layer_frame renderer fuel
  | setState handle value => exact durable.set_state handle value
  | setSignal signal value => exact Keeps.change fun owner => durable.write owner _ value
  | createSignal comparable value =>
    exact Keeps.change fun owner => durable.createSignal owner comparable value
  | destroySignal signal => exact Keeps.change fun owner => durable.destroySignal owner signal

end Durable

/-- Every run keeps what the primitives keep for every application. -/
theorem Durable.perform_each [DecidableEq α] {invariant : BuildOwner α → Prop}
    (durable : ∀ program : Program α, Durable program invariant)
    (script : List (Program α × Nat × Call α)) : ∀ owner last, invariant owner →
    performEach script owner = some last → invariant last := by
  induction script with
  | nil =>
    intro owner last held ran
    cases ran
    exact held
  | cons first rest ih =>
    obtain ⟨program, fuel, call⟩ := first
    intro owner last held ran
    rw [performEach] at ran
    split at ran
    · cases ran
    · exact ih _ last ((durable program).perform fuel call _ _ _ held ‹_›) ran

end Dui
