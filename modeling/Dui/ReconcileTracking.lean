import Dui.BuildTracking

/-! Builds, reconciliation and flushes keep the bookkeeping, whether they return or
throw. The functions that take the reconciler as an argument keep it if that does, and
`reconcile_child` does by induction on its fuel. -/
namespace Dui
open Effect BuildOwner

variable {α : Type} {pending exempt scopes : List ElementId}

/-- Changing fields that no reading depends on. -/
theorem reshape_keeps (id : ElementId) {f : Element α → Element α}
    (like : ∀ element : Element α, element.Like (f element))
    (dirty : ∀ element : Element α, (f element).dirty = element.dirty) :
    Keeps (Tracked pending exempt scopes)
      (Run.change (·.updateElement id f) : Building α Unit) :=
  Keeps.change fun _ tracked => tracked.grows (Grows.reshape like dirty)

/-- Changing the owner where no element or source is concerned. -/
theorem outside_keeps {f : BuildOwner α → BuildOwner α}
    (registry : ∀ owner : BuildOwner α, (f owner).registry = owner.registry)
    (sources : ∀ owner : BuildOwner α, (f owner).sources = owner.sources)
    (numbers : ∀ owner : BuildOwner α, (f owner).nextId = owner.nextId ∧
      (f owner).nextSignal = owner.nextSignal)
    (active : ∀ owner : BuildOwner α, (f owner).active = owner.active)
    (dirty : ∀ owner : BuildOwner α, (f owner).dirty = owner.dirty) :
    Keeps (Tracked pending exempt scopes) (Run.change f : Building α Unit) := by
  refine Keeps.change fun owner tracked => tracked.grows ⟨sources owner, (numbers owner).1,
    (numbers owner).2, active owner, fun _ queued => ?_, fun other after mounted => ?_⟩
  · rw [dirty]
    exact queued
  · rw [registry] at mounted
    exact ⟨after, mounted, Element.Like.refl after, fun dirty => dirty, Or.inl⟩

theorem read_dependency_keeps (dependency : Dependency) :
    Keeps (Tracked pending exempt scopes) (readDependency dependency : Building α α) := by
  intro owner outcome next tracked ran
  unfold readDependency at ran
  split at ran
  · cases ran
  · split at ran
    · cases ran
      exact tracked
    · cases ran
      exact tracked.observe (tracked.active _ ‹_›) ‹_›

theorem read_state_keeps (handle : StateHandle) :
    Keeps (Tracked pending exempt scopes) (readState handle : Building α α) := by
  intro owner outcome next tracked ran
  unfold readState at ran
  split at ran
  · cases ran
    exact tracked
  · rename_i value found
    split at ran
    · cases ran
      refine tracked.noteRead (tracked.active _ ‹_›) fun element mounted => ⟨trivial, ?_⟩
      unfold stateOf at found
      split at found
      · cases found
      · obtain ⟨stood, _⟩ := Option.filter_eq_some_iff.mp ‹owner.resolve _ _ = some _›
        cases stood.symm.trans mounted
        split at found
        · cases found
        · cases found
          exact ‹_›
    · cases ran
      exact tracked

variable [DecidableEq α]

theorem set_state_keeps (handle : StateHandle) (value : α) :
    Keeps (Tracked pending exempt scopes) (setState handle value) := by
  refine Keeps.bind Keeps.read fun current => Keeps.bind Keeps.resume fun current => ?_
  split
  · exact Keeps.pure
  · exact Keeps.change fun _ tracked => tracked.writeState handle value

/-- A build keeps the bookkeeping, one operation at a time. -/
theorem run_build_keeps (build : Build α) :
    Keeps (Tracked pending exempt scopes) (runBuild build) := by
  induction build with
  | done view => exact Keeps.pure
  | throw failure => exact Keeps.throw
  | get signal next ih => exact Keeps.bind (read_dependency_keeps _) ih
  | set signal value next ih =>
    exact Keeps.bind (Keeps.change fun _ tracked => tracked.write _ value) fun _ => ih
  | createSignal comparable value next ih =>
    refine Keeps.bind Keeps.read fun signal => Keeps.bind ?_ fun _ => ih signal
    exact Keeps.change fun _ tracked => tracked.createSignal comparable value
  | destroySignal signal next ih =>
    exact Keeps.bind (Keeps.change fun _ tracked => tracked.dropSource nofun) fun _ => ih
  | state slot comparable initial next ih =>
    rw [runBuild]
    refine Keeps.bind Keeps.read fun found => ?_
    split
    · exact Keeps.diverge
    · exact Keeps.bind (Keeps.change fun _ tracked => tracked.declareState _ slot initial)
        fun _ => ih _
  | getState handle next ih => exact Keeps.bind (read_state_keeps handle) ih
  | setState handle value next ih => exact Keeps.bind (set_state_keeps handle value) fun _ => ih
  | environment type next ih =>
    rw [runBuild]
    refine Keeps.bind Keeps.read fun active => ?_
    split
    · exact Keeps.diverge
    · refine Keeps.bind Keeps.read fun provider => ?_
      split
      · exact Keeps.throw
      · exact Keeps.bind (read_dependency_keeps _) ih

omit [DecidableEq α] in
theorem unmount_keeps (fuel : Nat) : ∀ id,
    Keeps (Tracked pending exempt scopes) (unmount fuel id : Building α Unit) := by
  induction fuel with
  | zero => exact fun _ => Keeps.diverge
  | succ fuel ih =>
    intro id
    refine Keeps.bind Keeps.read fun found => ?_
    split
    · exact Keeps.pure
    · refine Keeps.bind (Keeps.each ih _) fun _ => Keeps.bind (Keeps.each ih _) fun _ => ?_
      exact Keeps.change fun _ tracked => tracked.removeElement id

omit [DecidableEq α] in
theorem set_children_keeps (id : ElementId) (children : List ElementId) :
    Keeps (Tracked pending exempt scopes) (setChildren id children : Building α Unit) :=
  reshape_keeps id (fun _ => ⟨rfl, rfl, rfl, rfl, rfl, rfl⟩) fun _ => rfl

omit [DecidableEq α] in
theorem set_kept_alive_keeps (id : ElementId) (kept : List ElementId) :
    Keeps (Tracked pending exempt scopes) (setKeptAlive id kept : Building α Unit) :=
  reshape_keeps id (fun _ => ⟨rfl, rfl, rfl, rfl, rfl, rfl⟩) fun _ => rfl

/-- A reconciler that keeps the bookkeeping. -/
def Steady (pending scopes : List ElementId) (reconcile : Reconciler α) : Prop :=
  ∀ slot view parent key, Keeps (Tracked pending [] scopes) (reconcile slot view parent key)

section Children
variable {reconcile : Reconciler α} (steady : Steady pending scopes reconcile) (fuel : Nat)
include steady

omit [DecidableEq α] in
theorem update_static_children_keeps (id : ElementId) (views : List (View α)) :
    ∀ done rest, Keeps (Tracked pending [] scopes)
      (updateStaticChildren reconcile fuel id done views rest) := by
  induction views with
  | nil =>
    exact fun done rest => Keeps.bind (Keeps.each (unmount_keeps fuel) _) fun _ =>
      set_children_keeps id done
  | cons view views ih =>
    intro done rest
    refine Keeps.bind (steady _ view _ _) fun (child, outcome) => ?_
    exact Keeps.bind (set_children_keeps id _) fun _ => Keeps.bind Keeps.resume fun _ => ih _ _

omit [DecidableEq α] in
theorem update_first_child_keeps (id : ElementId) (view : View α) :
    Keeps (Tracked pending [] scopes) (updateFirstChild reconcile id view) := by
  refine Keeps.bind Keeps.read fun children => Keeps.bind (steady _ view _ _) fun (child, _) => ?_
  exact Keeps.bind (set_children_keeps id _) fun _ => Keeps.bind Keeps.resume fun _ => Keeps.pure

omit [DecidableEq α] in
theorem update_only_child_keeps (id : ElementId) (view : View α) :
    Keeps (Tracked pending [] scopes) (updateOnlyChild reconcile fuel id view) := by
  refine Keeps.bind Keeps.read fun children =>
    Keeps.bind (update_first_child_keeps steady id view) fun child => ?_
  exact Keeps.bind (Keeps.each (unmount_keeps fuel) _) fun _ => set_children_keeps id _

omit steady [DecidableEq α] in
theorem drop_first_child_keeps (id : ElementId) :
    Keeps (Tracked pending exempt scopes) (dropFirstChild fuel id : Building α Unit) := by
  refine Keeps.bind Keeps.read fun children => ?_
  split
  · exact Keeps.pure
  · exact Keeps.bind (unmount_keeps fuel _) fun _ => set_children_keeps id _

omit steady in
theorem build_items_keeps (program : Program α) (type : TypeToken) (items : List (Key × α)) :
    ∀ views, Keeps (Tracked pending exempt scopes) (buildItems program type views items) := by
  induction items with
  | nil => exact fun _ => Keeps.pure
  | cons item items ih =>
    intro views
    unfold buildItems
    split
    · exact Keeps.throw
    · exact Keeps.bind (run_build_keeps _) fun _ => ih _

omit [DecidableEq α] in
theorem reconcile_items_keeps (id : ElementId) (items : List (Key × View α)) :
    ∀ next previous, Keeps (Tracked pending [] scopes)
      (reconcileItems reconcile fuel id next previous items) := by
  induction items with
  | nil => exact fun _ _ => Keeps.pure
  | cons item items ih =>
    intro next previous
    refine Keeps.bind Keeps.read fun found => Keeps.bind (steady _ _ _ _) fun (child, outcome) => ?_
    cases outcome with
    | error failure =>
      refine Keeps.bind (unmount_keeps fuel child) fun _ => ?_
      refine Keeps.bind (Keeps.each (unmount_keeps fuel) _) fun _ => ?_
      refine Keeps.bind (Keeps.each (unmount_keeps fuel) _) fun _ => ?_
      exact Keeps.bind (set_children_keeps id _) fun _ => Keeps.throw
    | ok => exact ih _ _

theorem update_for_each_keeps (program : Program α) (id : ElementId) (type : TypeToken)
    (items : List (Key × α)) :
    Keeps (Tracked pending [] scopes) (updateForEach program reconcile fuel id type items) := by
  refine Keeps.bind (build_items_keeps program type items []) fun views => ?_
  refine Keeps.bind Keeps.read fun previous => Keeps.bind (set_children_keeps id _) fun _ => ?_
  refine Keeps.bind (reconcile_items_keeps steady fuel id views _ _) fun (next, previous) => ?_
  exact Keeps.bind (Keeps.each (unmount_keeps fuel) _) fun _ => set_children_keeps id _

end Children

/-! Rebuilding an element. -/

/-- The element, if mounted, has its rebuild function. -/
def BuildOwner.Armed (id : ElementId) (owner : BuildOwner α) : Prop :=
  id < owner.nextId ∧ ∀ element, owner.registry id = some element → element.rebuild = true

omit [DecidableEq α] in
theorem clear_armed {owner : BuildOwner α} {id : ElementId} (armed : owner.Armed id) :
    (owner.clearDependencies id).Armed id := by
  unfold clearDependencies
  split
  · exact armed
  · rename_i element held
    have frame := (unsubscribe_all id element.dependencies owner).frame
    refine ⟨?_, fun after mounted => ?_⟩
    · show id < (List.foldl _ owner _).nextId
      rw [frame]
      exact armed.1
    · obtain ⟨before, stood, ⟨_, rfl⟩ | ⟨different, _⟩⟩ := update_element_cases mounted
      · rw [frame] at stood
        exact armed.2 before stood
      · exact absurd rfl different

omit [DecidableEq α] in
/-- The context of an armed element is active while a computation runs that keeps the
bookkeeping inside the scope. -/
theorem with_scope_keeps {β : Type} {id : ElementId} {run : Building α β}
    (kept : Keeps (Tracked pending exempt (id :: scopes)) run) :
    Triple (fun owner => owner.Tracked pending exempt scopes ∧ owner.Armed id) (withScope id run)
      fun _ => Tracked pending exempt scopes := by
  refine Triple.consulting fun previous => ?_
  by_cases outer : ∀ other, previous = some other → other ∈ scopes
  · refine Triple.adjusting (fun owner held => held.1.1.enter held.1.2.1 held.1.2.2) ?_
    refine Triple.catching kept fun outcome => ?_
    exact Triple.adjusting (fun _ tracked => tracked.leave outer) Keeps.resume
  · rintro owner outcome next ⟨⟨tracked, _⟩, rfl⟩
    exact absurd tracked.active outer

/-- What holds when the view of an element is about to be updated: the element is of the
view's type, and it is up to date unless it was dirty. -/
structure BuildOwner.Beginning (pending scopes : List ElementId) (id : ElementId)
    (type : ViewKind × TypeToken) (owner : BuildOwner α) : Prop where
  tracked : owner.Tracked pending [id] scopes
  bounded : id < owner.nextId
  typed : ∀ element, owner.registry id = some element → element.viewType = type
  fresh : ∀ element, owner.registry id = some element → element.rebuildingDirty = false →
    owner.Fresh element

omit [DecidableEq α] in
/-- Only components have something to read, so the update of another view need not
rebuild anything. -/
theorem BuildOwner.Beginning.plain {owner : BuildOwner α} {id : ElementId} {type : ViewKind × TypeToken}
    (beginning : owner.Beginning pending scopes id type) (plain : type.1 ≠ .component) :
    owner.Tracked pending [] scopes := by
  refine beginning.tracked.settle fun other element held _ listed => Or.inl ?_
  cases List.mem_singleton.mp listed
  have kept := beginning.tracked.elements id element held
  cases rebuilt : element.rebuild with
  | false => exact Fresh.of_silent (kept.silent rebuilt).1
  | true => exact absurd (beginning.typed element held ▸ kept.typed rebuilt) plain

section Views
variable (program : Program α) {reconcile : Reconciler α} (fuel : Nat)
variable (steady : ∀ scopes, Steady pending scopes reconcile)
include steady

theorem rebuild_keeps (id : ElementId) :
    Triple (fun owner => owner.Tracked pending [id] scopes ∧ owner.Armed id)
      (rebuild program reconcile fuel id) fun _ => Tracked pending [] scopes := by
  refine Triple.adjusting (fun owner held => ⟨held.1.clear, clear_armed held.2⟩)
    (with_scope_keeps ?_)
  refine Keeps.bind Keeps.read fun found => ?_
  split
  · exact Keeps.diverge
  · exact Keeps.bind (run_build_keeps _) fun view => update_only_child_keeps (steady _) fuel id view

theorem update_component_keeps (id : ElementId) (type : TypeToken) (descriptor : α) :
    Triple (Beginning pending scopes id (.component, type))
      (updateComponent program reconcile fuel id type descriptor)
      fun _ => Tracked pending [] scopes := by
  refine Triple.consulting fun equivalent => ?_
  have described : ∀ owner : BuildOwner α, owner.Beginning pending scopes id (.component, type) →
      (owner.updateElement id fun element => { element with descriptor := some descriptor }).Beginning
        pending scopes id (.component, type) := by
    intro owner beginning
    refine ⟨beginning.tracked.grows (Grows.reshape (fun _ => ⟨rfl, rfl, rfl, rfl, rfl, rfl⟩)
      fun _ => rfl), beginning.bounded, fun element mounted => ?_, fun element mounted clean => ?_⟩
    · obtain ⟨before, held, ⟨_, rfl⟩ | ⟨_, rfl⟩⟩ := update_element_cases mounted
      · exact beginning.typed before held
      · exact beginning.typed element held
    · obtain ⟨before, held, ⟨_, rfl⟩ | ⟨_, rfl⟩⟩ := update_element_cases mounted
      · exact beginning.fresh before held clean
      · exact beginning.fresh element held clean
  refine Triple.adjusting (fun owner held => described owner held.1) ?_
  refine Triple.consulting fun rebuildingDirty => ?_
  split
  · rename_i unchanged
    refine Triple.returning fun owner held => held.1.tracked.settle
      fun other element mounted _ listed => Or.inl ?_
    cases List.mem_singleton.mp listed
    refine held.1.fresh element mounted ?_
    have clean := held.2
    rw [mounted, Option.any_some] at clean
    rw [clean]
    exact Bool.eq_false_iff.mpr unchanged.2
  · refine Triple.adjusting (fun owner held => ⟨held.1.tracked.arm fun element mounted => ?_,
      held.1.bounded, fun element mounted => ?_⟩) (rebuild_keeps program fuel steady id)
    · rw [held.1.typed element mounted]
    · obtain ⟨before, _, ⟨_, rfl⟩ | ⟨different, _⟩⟩ := update_element_cases mounted
      · rfl
      · exact absurd rfl different

omit steady [DecidableEq α] in
theorem update_lazy_list_keeps (id : ElementId) (model : LazyModel α) :
    Keeps (Tracked pending exempt scopes) (updateLazyList fuel id model) := by
  refine Keeps.bind (reshape_keeps id (fun _ => ⟨rfl, rfl, rfl, rfl, rfl, rfl⟩) fun _ => rfl)
    fun _ => Keeps.bind Keeps.read fun keptAlive => Keeps.bind Keeps.read fun keeps => ?_
  refine Keeps.bind (Keeps.each (unmount_keeps fuel) _) fun _ =>
    Keeps.bind (set_kept_alive_keeps id _) fun _ => Keeps.bind Keeps.read fun found => ?_
  split
  · exact Keeps.pure
  · split
    · exact Keeps.pure
    · exact Keeps.bind (Keeps.each (unmount_keeps fuel) _) fun _ => set_kept_alive_keeps id _

theorem update_view_keeps (id : ElementId) (view : View α) :
    Triple (Beginning pending scopes id view.token) (updateView program reconcile fuel id view)
      fun _ => Tracked pending [] scopes := by
  have other : ∀ {run : Building α Unit}, view.token.1 ≠ .component →
      Keeps (Tracked pending [] scopes) run →
      Triple (Beginning pending scopes id view.token) run fun _ => Tracked pending [] scopes :=
    fun plain kept => kept.weaken (fun _ beginning => beginning.plain plain) fun _ _ held => held
  cases view with
  | component type descriptor => exact update_component_keeps program fuel steady id type descriptor
  | leaf type rejected value =>
    refine other nofun (Keeps.bind ?_ fun _ => ?_)
    · exact reshape_keeps id (fun _ => ⟨rfl, rfl, rfl, rfl, rfl, rfl⟩) fun _ => rfl
    · cases rejected with
      | some failure => exact Keeps.throw
      | none =>
        exact Keeps.bind Keeps.read fun children =>
          Keeps.bind (Keeps.each (unmount_keeps fuel) _) fun _ => set_children_keeps id _
  | group type rejected views =>
    cases rejected with
    | some failure => exact other nofun Keeps.throw
    | none =>
      exact other nofun (Keeps.bind Keeps.read fun children =>
        update_static_children_keeps (steady _) fuel id views _ _)
  | single type rejected child =>
    cases rejected with
    | some failure => exact other nofun Keeps.throw
    | none =>
      exact other nofun (Keeps.bind (update_first_child_keeps (steady _) id child) fun _ =>
        Keeps.pure)
  | environment type values child =>
    refine other nofun (Keeps.bind (Keeps.each (fun value => ?_) _) fun _ =>
      update_only_child_keeps (steady _) fuel id child)
    exact Keeps.change fun _ tracked => tracked.setEnvironment program id _ _
  | optional type child =>
    cases child with
    | none => exact other nofun (drop_first_child_keeps fuel id)
    | some child =>
      exact other nofun (Keeps.bind (update_first_child_keeps (steady _) id child) fun _ =>
        Keeps.pure)
  | choice type branch child =>
    have chosen : Keeps (Tracked pending [] scopes) (do
        Run.change (·.updateElement id fun element => { element with activeBranch := some branch })
        let _ ← updateFirstChild reconcile id child) :=
      Keeps.bind (reshape_keeps id (fun _ => ⟨rfl, rfl, rfl, rfl, rfl, rfl⟩) fun _ => rfl)
        fun _ => Keeps.bind (update_first_child_keeps (steady _) id child) fun _ => Keeps.pure
    refine other nofun (Keeps.bind Keeps.read fun switched => ?_)
    simp only
    split
    · exact Keeps.bind (drop_first_child_keeps fuel id) fun _ => chosen
    · exact chosen
  | forEach type items =>
    exact other nofun (update_for_each_keeps (steady _) fuel program id type items)
  | lazyList type rejected items keepAliveKeys keepAliveLimit =>
    cases rejected with
    | some failure => exact other nofun Keeps.throw
    | none => exact other nofun (update_lazy_list_keeps fuel id _)

end Views

/-- The element a view is reconciled with: mounted once, and of the view's type. -/
def BuildOwner.Suited (id : ElementId) (type : ViewKind × TypeToken) (owner : BuildOwner α) :
    Prop :=
  id < owner.nextId ∧ ∀ element, owner.registry id = some element → element.viewType = type

/-- The update of an element that suits its view. -/
theorem update_element_keeps (program : Program α) {reconcile : Reconciler α} (fuel : Nat)
    (steady : ∀ scopes, Steady pending scopes reconcile) (view : View α) (id : ElementId) :
    Triple (fun owner : BuildOwner α => owner.Tracked pending [] scopes ∧
      owner.Suited id view.token) (do
        Run.change (·.beginUpdate id)
        let outcome ← Run.attempt (updateView program reconcile fuel id view)
        Run.change (·.endUpdate id)
        pure (id, outcome)) fun _ => Tracked pending [] scopes := by
  have update : Triple (Beginning pending scopes id view.token)
      (updateView program reconcile fuel id view) fun _ => Tracked pending [] scopes :=
    update_view_keeps program fuel steady id view
  refine Triple.adjusting (fun owner held => ?_) (Triple.catching update fun outcome => ?_)
  · obtain ⟨tracked, fresh⟩ := held.1.beginUpdate id
    refine ⟨tracked, held.2.1, fun element mounted => ?_, fun element mounted =>
      fresh element mounted List.not_mem_nil⟩
    obtain ⟨before, stood, ⟨_, rfl⟩ | ⟨_, rfl⟩⟩ := update_element_cases mounted
    · exact held.2.2 before stood
    · exact held.2.2 element stood
  · exact Keeps.bind (reshape_keeps id (fun _ => ⟨rfl, rfl, rfl, rfl, rfl, rfl⟩) fun _ => rfl)
      fun _ => Keeps.pure

/-- Reconciling keeps the bookkeeping, by induction on how deep it may go. -/
theorem reconcile_child_keeps (program : Program α) (fuel : Nat) :
    ∀ scopes, Steady pending scopes (reconcileChild program fuel) := by
  induction fuel with
  | zero => exact fun scopes slot view parent key => Keeps.diverge
  | succ fuel ih =>
    intro scopes slot view parent key
    have updated := fun id => @update_element_keeps α pending scopes _ program _ fuel ih view id
    have mounted : Triple (Tracked pending [] scopes) (do
        let id ← Run.read (·.nextId)
        Run.change (·.makeElement view.token key parent)
        Run.change (·.beginUpdate id)
        let outcome ← Run.attempt (updateView program (reconcileChild program fuel) fuel id view)
        Run.change (·.endUpdate id)
        pure (id, outcome)) fun _ => Tracked pending [] scopes := by
      refine Triple.consulting fun id => Triple.adjusting (fun owner held => ?_) (updated id)
      obtain ⟨tracked, rfl⟩ := held
      refine ⟨tracked.makeElement view.token key parent, Nat.lt_succ_self _, fun element held => ?_⟩
      cases (if_pos rfl : (owner.makeElement view.token key parent).registry owner.nextId = _).symm.trans
        held
      rfl
    rw [reconcileChild]
    refine Triple.consulting fun reusable => ?_
    cases reusable with
    | some id =>
      refine Triple.weaken (updated id) (fun owner held => ⟨held.1, ?_⟩) fun _ _ kept => kept
      obtain ⟨stood, fit⟩ := Option.filter_eq_some_iff.mp held.2
      unfold fits at fit
      cases found : owner.registry id with
      | none =>
        rw [found] at fit
        cases fit
      | some element =>
        rw [found] at fit
        refine ⟨(held.1.elements id element found).mounted, fun other same => ?_⟩
        cases found.symm.trans same
        exact of_decide_eq_true (Bool.and_eq_true_iff.mp fit).1
    | none =>
      have weakened := mounted.weaken (fun owner
        (held : owner.Tracked pending [] scopes ∧ slot.filter (fits owner view key) = none) =>
          held.1) fun _ _ kept => kept
      cases slot with
      | none => exact weakened
      | some old =>
        refine Triple.bind (Triple.weaken (unmount_keeps fuel old) (fun _ held => held.1)
          fun _ _ kept => kept) (fun _ => mounted) fun _ _ kept => kept

/-! Whole operations. -/

omit [DecidableEq α] in
theorem exclusively_keeps {β : Type} {refusal : Failure} {run : Building α β}
    (kept : Keeps (Tracked pending exempt scopes) run) :
    Keeps (Tracked pending exempt scopes) (exclusively refusal run) := by
  refine Keeps.bind Keeps.read fun busy => ?_
  split
  · exact Keeps.throw
  · refine Keeps.bind (outside_keeps (fun _ => rfl) (fun _ => rfl) (fun _ => ⟨rfl, rfl⟩)
      (fun _ => rfl) fun _ => rfl) fun _ => Keeps.bind (Keeps.attempt kept) fun outcome => ?_
    exact Keeps.bind (outside_keeps (fun _ => rfl) (fun _ => rfl) (fun _ => ⟨rfl, rfl⟩)
      (fun _ => rfl) fun _ => rfl) fun _ => Keeps.resume

theorem render_keeps (program : Program α) (fuel : Nat) (view : View α) :
    Keeps (Tracked pending [] scopes) (render program fuel view) := by
  refine exclusively_keeps (Keeps.bind Keeps.read fun root =>
    Keeps.bind (reconcile_child_keeps program fuel scopes _ view _ _) fun (id, outcome) => ?_)
  exact Keeps.bind (outside_keeps (fun _ => rfl) (fun _ => rfl) (fun _ => ⟨rfl, rfl⟩)
    (fun _ => rfl) fun _ => rfl) fun _ => Keeps.resume

omit [DecidableEq α] in
theorem needs_rebuild_iff {owner : BuildOwner α} {id : ElementId} : needsRebuild owner id = true ↔
    ∃ element, owner.registry id = some element ∧ element.dirty = true ∧
      element.rebuild = true := by
  unfold needsRebuild
  cases owner.registry id with
  | none => simp only [Option.any_none, Bool.false_eq_true, reduceCtorEq, false_and, exists_false]
  | some element =>
    simp only [Option.any_some, Bool.and_eq_true, Option.some.injEq, exists_eq_left']

/-- A pass has one element less to visit after it has visited it, however that ends. -/
theorem flush_element_keeps (program : Program α) (fuel : Nat) (id : ElementId) :
    Triple (Tracked (id :: pending) [] scopes) (flushElement program fuel id)
      fun _ => Tracked pending [] scopes := by
  refine Triple.consulting fun needed => ?_
  cases needed with
  | false => exact Triple.returning fun owner held => held.1.skip held.2
  | true =>
    refine Triple.adjusting (fun owner held => ⟨held.1.visit, ?_⟩)
      (rebuild_keeps program fuel (reconcile_child_keeps program fuel) id)
    obtain ⟨tracked, needed⟩ := held
    obtain ⟨element, found, _, rebuilt⟩ := needs_rebuild_iff.mp needed
    refine ⟨(tracked.elements id element found).mounted, fun after mounted => ?_⟩
    obtain ⟨before, stood, ⟨_, rfl⟩ | ⟨different, _⟩⟩ := update_element_cases mounted
    · cases found.symm.trans stood
      exact rebuilt
    · exact absurd rfl different

omit [DecidableEq α] in
/-- A pass visits what was queued. -/
theorem pending_iff (program : Program α) (owner : BuildOwner α) (id : ElementId) :
    id ∈ pendingOf program owner ↔ id ∈ owner.dirty :=
  ((List.perm_insertionSort _ _).mem_iff).trans (program.arrange_perm owner.dirty).mem_iff

/-- What was left of the pass of a flush that threw, and the owner it leaves. -/
def flushCut (program : Program α) (fuel : Nat) :
    Nat → BuildOwner α → Option (List ElementId × BuildOwner α)
  | 0, _ => none
  | rounds + 1, owner =>
    let pass := pendingOf program owner
    if pass.isEmpty then none
    else match Run.each (flushElement program fuel) pass { owner with dirty := [] } with
      | some (.ok _, next) => flushCut program fuel rounds next
      | _ => Run.cut (flushElement program fuel) pass { owner with dirty := [] }

theorem flush_loop_step (program : Program α) (fuel rounds : Nat) (owner : BuildOwner α) :
    flushLoop program fuel (rounds + 1) owner =
      if (pendingOf program owner).isEmpty then some (.ok (), owner)
      else match Run.each (flushElement program fuel) (pendingOf program owner)
          { owner with dirty := [] } with
        | none => none
        | some (.ok _, next) => flushLoop program fuel rounds next
        | some (.error failure, next) => some (.error failure, next) := by
  rw [flushLoop]
  show (if (pendingOf program owner).isEmpty then _ else _ : Building α Unit) owner = _
  split
  · rfl
  · show Run.bind (Run.each (flushElement program fuel) (pendingOf program owner))
      (fun _ => flushLoop program fuel rounds) { owner with dirty := [] } = _
    unfold Run.bind
    cases Run.each (flushElement program fuel) (pendingOf program owner)
      { owner with dirty := [] } with
    | none => rfl
    | some result =>
      obtain ⟨_ | _, _⟩ := result
      · rfl
      · rfl

/-- A flush that returns leaves nothing dirty, and one that throws leaves what its pass
had not visited. -/
theorem flush_loop_spec (program : Program α) (fuel rounds : Nat) : ∀ owner outcome next,
    owner.Tracked [] [] scopes → flushLoop program fuel rounds owner = some (outcome, next) →
    (∀ value, outcome = .ok value → next.Tracked [] [] scopes ∧ next.dirty = []) ∧
      ∀ failure, outcome = .error failure →
        ∃ rest, flushCut program fuel rounds owner = some (rest, next) ∧
          next.Tracked rest [] scopes := by
  induction rounds with
  | zero => exact fun owner outcome next tracked ran => by cases ran
  | succ rounds ih =>
    intro owner outcome next tracked ran
    rw [flush_loop_step] at ran
    rw [flushCut]
    have listed := pending_iff program owner
    generalize pendingOf program owner = queue at ran listed
    by_cases idle : queue.isEmpty
    · rw [if_pos idle] at ran
      cases ran
      refine ⟨fun _ _ => ⟨tracked, List.eq_nil_iff_forall_not_mem.mpr fun id queued => ?_⟩, nofun⟩
      rw [← listed, List.isEmpty_iff.mp idle] at queued
      cases queued
    · rw [if_neg idle] at ran
      have begun := tracked.beginPass fun other queued => (listed other).mpr queued
      have passed := @Triple.each_cut _ _ _ (flushElement program fuel)
        (fun rest => Tracked rest [] scopes)
        (fun first rest => flush_element_keeps program fuel first) queue { owner with dirty := [] }
      cases started : Run.each (flushElement program fuel) queue { owner with dirty := [] } with
      | none =>
        rw [started] at ran
        cases ran
      | some result =>
        obtain ⟨caught, middle⟩ := result
        obtain ⟨done, thrown⟩ := passed caught middle begun started
        rw [started] at ran
        simp only [idle, Bool.false_eq_true, if_false]
        cases caught with
        | ok value => exact ih middle outcome next (done value rfl) ran
        | error failure =>
          cases ran
          exact ⟨nofun, fun _ _ => thrown failure rfl⟩

end Dui
