import Mathlib.Data.List.Perm.Subperm
import Dui.ElementHistory
import Dui.ElementPlaces

/-! The course of a computation of the build layer: the elements it mounts and unmounts
and the state slots it writes, one after the other. Between two owners whose elements are
in their places each element comes and goes at most once. -/
namespace Dui
open Effect BuildOwner Hierarchy

variable {α : Type}

inductive ElementEvent where
  | mounted (id : ElementId)
  | unmounted (id : ElementId)
  /-- `StateHandle::set` of a value that differs. -/
  | wrote (id : ElementId) (slot : String)
  deriving DecidableEq, Repr

/-- The states of the elements that are mounted. -/
def BuildOwner.states (owner : BuildOwner α) : ElementId → Option (String → Option α) :=
  fun id => (owner.registry id).map Element.state

/-- The elements are mounted as before and hold what they held. -/
structure BuildOwner.Quiet (owner next : BuildOwner α) : Prop where
  evolves : owner.Evolves next
  mounted : ∀ id, (next.registry id).isSome = (owner.registry id).isSome
  states : next.states = owner.states
  mountCount : next.mountCount = owner.mountCount
  unmountCount : next.unmountCount = owner.unmountCount

/-- The owner comes from the start by changes of which these are the ones that mount or
unmount an element or write its state. -/
inductive BuildOwner.Course (start : BuildOwner α) : List ElementEvent → BuildOwner α → Prop where
  | start : start.Course [] start
  | quiet {events : List ElementEvent} {owner next : BuildOwner α}
      (course : start.Course events owner) (quiet : owner.Quiet next) : start.Course events next
  | declared {events : List ElementEvent} {owner : BuildOwner α} (id : ElementId) (slot : String)
      (initial : α) (course : start.Course events owner) :
      start.Course events (owner.declareState id slot initial)
  | wrote {events : List ElementEvent} {owner : BuildOwner α} (handle : StateHandle) (value : α)
      (course : start.Course events owner) :
      start.Course (events ++ [.wrote handle.element handle.slot]) (owner.writeState handle value)
  | mounted {events : List ElementEvent} {owner : BuildOwner α}
      (viewType : ViewKind × TypeToken) (key : Key) (parent : Option ElementId)
      (course : start.Course events owner) :
      start.Course (events ++ [.mounted owner.nextId]) (owner.makeElement viewType key parent)
  | unmounted {events : List ElementEvent} {owner : BuildOwner α} (id : ElementId)
      (course : start.Course events owner) :
      start.Course (events ++ [.unmounted id]) (owner.removeElement id)

/-- What covers all that is not kept, and is no longer than that, is just that. -/
theorem nodup_of_cover {ι : Type} [DecidableEq ι] {all kept removed : List ι}
    (distinct : all.Nodup) (covers : ∀ id ∈ all, id ∉ kept → id ∈ removed)
    (few : kept.length + removed.length ≤ all.length) :
    removed.Nodup ∧ ∀ id ∈ removed, id ∈ all ∧ id ∉ kept := by
  have covered : all ⊆ kept ++ removed := by
    intro id listed
    by_cases stays : id ∈ kept
    · exact List.mem_append_left _ stays
    · exact List.mem_append_right _ (covers id listed stays)
  have same : all.Perm (kept ++ removed) :=
    (List.Nodup.subperm distinct covered).perm_of_length_le (by rwa [List.length_append])
  have apart := List.nodup_append.mp (same.nodup_iff.mp distinct)
  refine ⟨apart.2.1, fun id gone => ⟨?_, fun stays => apart.2.2 id stays id gone rfl⟩⟩
  exact same.mem_iff.mpr (List.mem_append_right _ gone)

theorem Housed.all_issued {gone : ElementId → Prop} {root : Option ElementId}
    {hollow : List (Opening Listing)} {owner : BuildOwner α}
    (housed : Housed gone root hollow owner) : owner.Issued := by
  intro id there
  obtain ⟨element, mounted⟩ := Option.isSome_iff_exists.mp there
  exact housed.issued id element.node (by simp [BuildOwner.shape, mounted])

/-- The elements that are mounted on the way, in order. -/
def mountedIds (events : List ElementEvent) : List ElementId :=
  events.filterMap fun
    | .mounted id => some id
    | _ => none

/-- The elements that are unmounted on the way, in order. -/
def unmountedIds (events : List ElementEvent) : List ElementId :=
  events.filterMap fun
    | .unmounted id => some id
    | _ => none

namespace BuildOwner
variable {owner next : BuildOwner α} {id : ElementId}

section States
variable (owner)

theorem update_element_states {f : Element α → Element α}
    (same : ∀ element, (f element).state = element.state) :
    (owner.updateElement id f).states = owner.states := by
  funext other
  unfold states updateElement
  dsimp only
  split
  · cases owner.registry other with
    | none => rfl
    | some element => exact congrArg some (same element)
  · rfl

theorem mark_dirty_states (id : ElementId) (generation : Nat) :
    (owner.markDirty id generation).states = owner.states := by
  unfold markDirty
  split
  · rfl
  · split
    · rfl
    · exact update_element_states owner fun _ => rfl

theorem foldl_states {ι : Type} {step : BuildOwner α → ι → BuildOwner α}
    (same : ∀ owner item, (step owner item).states = owner.states) (items : List ι) :
    ∀ owner, (items.foldl step owner).states = owner.states := by
  induction items with
  | nil => exact fun _ => rfl
  | cons item items ih => exact fun owner => (ih _).trans (same owner item)

theorem write_states [DecidableEq α] (dependency : Dependency) (value : α) :
    (owner.write dependency value).states = owner.states := by
  unfold write
  split
  · rfl
  · split
    · rfl
    · unfold notifyDependents
      split
      · rfl
      · exact foldl_states (fun owner _ => mark_dirty_states owner _ _) _ _

theorem observe_states (id : ElementId) (dependency : Dependency) :
    (owner.observe id dependency).states = owner.states := by
  unfold observe
  split
  · rfl
  · split
    · rfl
    · exact update_element_states owner fun _ => rfl

theorem clear_states (id : ElementId) : (owner.clearDependencies id).states = owner.states := by
  unfold clearDependencies
  split
  · rfl
  · refine (update_element_states _ fun _ => ?_).trans ?_
    · rfl
    · apply foldl_states
      intro owner dependency
      rfl

theorem drop_source_states (dependency : Dependency) :
    (owner.dropSource dependency).states = owner.states := by
  change (owner.forgetSource dependency).states = _
  unfold forgetSource
  split
  · rfl
  · refine foldl_states (fun owner subscriber => ?_) _ _
    unfold forgetDependency
    split
    · rfl
    · exact update_element_states owner fun _ => rfl

theorem set_environment_states [DecidableEq α] (program : Program α) (id : ElementId)
    (type : TypeToken) (value : α) :
    (owner.setEnvironment program id type value).states = owner.states := by
  unfold setEnvironment
  split
  · rfl
  · exact write_states owner _ _
  · exact update_element_states owner fun _ => rfl

theorem make_states (viewType : ViewKind × TypeToken) (key : Key) (parent : Option ElementId)
    {other : ElementId} (old : other ≠ owner.nextId) :
    (owner.makeElement viewType key parent).states other = owner.states other := by
  simp [states, makeElement, old]

theorem remove_states (id other : ElementId) :
    (owner.removeElement id).states other = if other = id then none else owner.states other := by
  have dropped : (owner.removeElement id).states = states
      { owner.clearDependencies id with
        registry := fun other => if other = id then none
          else (owner.clearDependencies id).registry other } := by
    apply foldl_states
    intro owner type
    exact drop_source_states owner _
  have cleared := congrFun (clear_states owner id) other
  rw [dropped]
  unfold states at cleared ⊢
  dsimp only
  split
  · rfl
  · exact cleared

theorem write_state_states (handle : StateHandle) (value : α) {other : ElementId} {slot : String}
    (apart : ¬ (handle.element = other ∧ handle.slot = slot)) :
    ((owner.writeState handle value).states other).map (· slot) =
      (owner.states other).map (· slot) := by
  unfold writeState
  split
  · rfl
  · rw [mark_dirty_states]
    unfold states updateElement
    dsimp only
    split
    · rename_i same
      have elsewhere : slot ≠ handle.slot := fun here => apart ⟨same.symm, here.symm⟩
      cases owner.registry other with
      | none => rfl
      | some element => simp [elsewhere]
    · rfl

theorem declare_state_states (id : ElementId) (slot : String) (initial : α) {other : ElementId}
    {name : String} {value : α} (holds : (owner.states other).map (· name) = some (some value)) :
    ((owner.declareState id slot initial).states other).map (· name) = some (some value) := by
  unfold declareState states updateElement
  unfold states at holds
  dsimp only
  split
  · cases found : owner.registry other with
    | none => simp [found] at holds
    | some element =>
      simp only [found, Option.map_some, Option.some.injEq] at holds
      simp only [Option.map_some, holds, Option.getD_some, ite_self]
  · exact holds

end States

/-- What neither concerns the shape of the tree nor a state is quiet. -/
theorem Quiet.of_reworks (reworks : Reworks Element.Lasts owner next)
    (shape : next.shape = owner.shape) (states : next.states = owner.states) :
    owner.Quiet next :=
  ⟨reworks.evolves, reworks.mounted, states, congrArg Shape.made shape,
    congrArg Shape.removed shape⟩

theorem Steady.quiet (steady : owner.Steady next) : owner.Quiet next := by
  refine ⟨steady.alike.evolves, steady.alike.mounted, ?_, steady.mountCount, steady.unmountCount⟩
  funext id
  have mounted := steady.alike.mounted id
  unfold BuildOwner.states
  cases before : owner.registry id with
  | none =>
    rw [before, Option.isSome_none, Option.isSome_eq_false_iff,
      Option.isNone_iff_eq_none] at mounted
    rw [mounted]
  | some element =>
    rw [before] at mounted
    obtain ⟨after, there⟩ := Option.isSome_iff_exists.mp mounted
    rw [there]
    exact congrArg some (steady.states id element after before there)

/-- Every computation has a course. -/
theorem course_durable [DecidableEq α] (program : Program α) (start : BuildOwner α) :
    Durable program fun owner => ∃ events, start.Course events owner where
  steady _ _ := fun ⟨events, course⟩ steady => ⟨events, course.quiet steady.quiet⟩
  declareState _ id slot initial := fun ⟨events, course⟩ =>
    ⟨events, course.declared id slot initial⟩
  writeState _ handle value := fun ⟨_, course⟩ => ⟨_, course.wrote handle value⟩
  write owner dependency value := fun ⟨events, course⟩ => ⟨events, course.quiet (.of_reworks
    (write_reworks lasts_unseeing owner dependency value) (write_shape owner dependency value)
    (write_states owner dependency value))⟩
  observe owner id dependency := fun ⟨events, course⟩ _ => ⟨events, course.quiet (.of_reworks
    (observe_reworks lasts_unseeing owner id dependency) (observe_shape owner id dependency)
    (observe_states owner id dependency))⟩
  clear owner id := fun ⟨events, course⟩ => ⟨events, course.quiet (.of_reworks
    (clear_reworks lasts_unseeing owner id) (clear_dependencies_shape owner id)
    (clear_states owner id))⟩
  createSignal _ _ _ := fun ⟨events, course⟩ => ⟨events, course.quiet (.of_reworks
    (.of_same lasts_unseeing rfl rfl) rfl rfl)⟩
  destroySignal owner _ := fun ⟨events, course⟩ => ⟨events, course.quiet (.of_reworks
    (drop_source_reworks lasts_unseeing owner _) (drop_source_shape owner _)
    (drop_source_states owner _))⟩
  makeElement _ viewType key parent := fun ⟨_, course⟩ => ⟨_, course.mounted viewType key parent⟩
  removeElement _ id := fun ⟨_, course⟩ => ⟨_, course.unmounted id⟩
  setEnvironment owner id type value := fun ⟨events, course⟩ => ⟨events, course.quiet (.of_reworks
    (set_environment_reworks lasts_unseeing program owner id type value)
    (set_environment_shape owner program id type value)
    (set_environment_states owner program id type value))⟩

namespace Course
variable {start : BuildOwner α} {events : List ElementEvent}

/-- The owner is later than the start. -/
theorem later (issued : start.Issued) (course : start.Course events owner) :
    start.Later owner := by
  induction course with
  | start => exact .refl issued
  | quiet _ quiet ih => exact ih.evolve quiet.evolves
  | declared id slot initial _ ih =>
    exact ih.evolve (declare_state_reworks lasts_unseeing _ id slot initial).evolves
  | wrote handle value _ ih =>
    exact ih.evolve (write_state_reworks lasts_unseeing _ handle value).evolves
  | mounted viewType key parent _ ih => exact ih.makeElement viewType key parent
  | unmounted id _ ih => exact ih.evolve remove_evolves

/-- Elements are mounted under the next identities. -/
theorem mounted_ids (course : start.Course events owner) : start.nextId ≤ owner.nextId ∧
    mountedIds events = List.range' start.nextId (owner.nextId - start.nextId) := by
  induction course with
  | start => simp [mountedIds]
  | quiet _ quiet ih => rwa [quiet.evolves.nextId]
  | declared id slot initial _ ih => exact ih
  | wrote handle value _ ih =>
    rw [(write_state_reworks lasts_unseeing _ handle value).nextId]
    simpa [mountedIds] using ih
  | @mounted events owner viewType key parent _ ih =>
    obtain ⟨earlier, ids⟩ := ih
    refine ⟨earlier.trans (Nat.le_succ _), ?_⟩
    have one : mountedIds (events ++ [.mounted owner.nextId]) =
        mountedIds events ++ [owner.nextId] := by
      simp [mountedIds]
    have last : start.nextId + 1 * (owner.nextId - start.nextId) = owner.nextId := by
      rw [Nat.one_mul, Nat.add_sub_cancel' earlier]
    rw [one, ids]
    change _ = List.range' start.nextId (owner.nextId + 1 - start.nextId)
    rw [Nat.sub_add_comm earlier, List.range'_concat, last]
  | unmounted id _ ih =>
    rw [remove_evolves.nextId]
    simpa [mountedIds] using ih

/-- Every unmounting is counted. -/
theorem unmount_count (course : start.Course events owner) :
    owner.unmountCount = start.unmountCount + (unmountedIds events).length := by
  induction course with
  | start => simp [unmountedIds]
  | quiet _ quiet ih => rw [quiet.unmountCount, ih]
  | declared id slot initial _ ih => exact ih
  | @wrote _ owner handle value _ ih =>
    have same := congrArg Shape.removed (write_state_shape owner handle value)
    refine same.trans (ih.trans ?_)
    simp [unmountedIds]
  | mounted viewType key parent _ ih =>
    refine ih.trans ?_
    simp [unmountedIds]
  | @unmounted _ owner id _ ih =>
    have same := congrArg Shape.removed (remove_element_shape owner id)
    refine same.trans ((congrArg (· + 1) ih).trans ?_)
    simp [unmountedIds, Nat.add_assoc]

/-- What was mounted, or is on the way, and is not mounted has been unmounted. -/
theorem gone (course : start.Course events owner) {id : ElementId}
    (there : (start.registry id).isSome ∨ start.nextId ≤ id ∧ id < owner.nextId)
    (absent : owner.registry id = none) : id ∈ unmountedIds events := by
  have missing {owner : BuildOwner α} {id : ElementId} :
      owner.registry id = none ↔ owner.states id = none := by
    simp [states]
  rw [missing] at absent
  induction course with
  | start =>
    obtain there | ⟨old, new⟩ := there
    · rw [← missing] at absent
      simp [absent] at there
    · exact absurd (old.trans_lt new) (Nat.lt_irrefl _)
  | quiet _ quiet ih =>
    rw [quiet.states] at absent
    rw [quiet.evolves.nextId] at there
    exact ih there absent
  | @declared _ owner other slot initial _ ih =>
    apply ih there
    rw [← missing] at absent ⊢
    have same := (declare_state_reworks lasts_unseeing owner other slot initial).mounted id
    simpa [absent] using same
  | @wrote _ owner handle value _ ih =>
    have reworks := write_state_reworks lasts_unseeing owner handle value
    have same := reworks.mounted id
    rw [reworks.nextId] at there
    rw [← missing] at absent
    rw [unmountedIds, List.filterMap_append]
    apply List.mem_append_left
    apply ih there
    rw [← missing]
    simpa [absent] using same
  | @mounted events owner viewType key parent _ ih =>
    rw [unmountedIds, List.filterMap_append]
    apply List.mem_append_left
    by_cases new : id = owner.nextId
    · simp [states, makeElement, new] at absent
    · rw [make_states owner viewType key parent new] at absent
      refine ih (there.imp_right ?_) absent
      rintro ⟨old, early⟩
      exact ⟨old, lt_of_le_of_ne (Nat.lt_succ_iff.mp early) new⟩
  | unmounted other _ ih =>
    rw [unmountedIds, List.filterMap_append]
    by_cases here : id = other
    · apply List.mem_append_right
      simp [here]
    · apply List.mem_append_left
      rw [remove_states, if_neg here] at absent
      rw [remove_evolves.nextId] at there
      exact ih there absent

/-- A slot keeps its value until it is written. -/
theorem state_kept (issued : start.Issued) (course : start.Course events owner) {id : ElementId}
    {before after : Element α} {slot : String} {value : α}
    (stood : start.registry id = some before) (stands : owner.registry id = some after)
    (held : before.state slot = some value) (unwritten : .wrote id slot ∉ events) :
    after.state slot = some value := by
  have early : id < start.nextId := issued id (by simp [stood])
  have kept : (owner.states id).map (· slot) = some (some value) := by
    have there : owner.states id ≠ none := by simp [states, stands]
    clear stands
    induction course with
    | start => simp [states, stood, held]
    | quiet _ quiet ih =>
      rw [quiet.states] at there ⊢
      exact ih unwritten there
    | @declared _ owner other name initial _ ih =>
      apply declare_state_states
      apply ih unwritten
      have same := (declare_state_reworks lasts_unseeing owner other name initial).mounted id
      simpa [states, ← Option.isSome_iff_ne_none, same] using there
    | @wrote _ owner handle value _ ih =>
      rw [List.mem_append, not_or, List.mem_singleton, ElementEvent.wrote.injEq] at unwritten
      rw [write_state_states owner handle value fun same => unwritten.2 ⟨same.1.symm, same.2.symm⟩]
      apply ih unwritten.1
      have same := (write_state_reworks lasts_unseeing owner handle value).mounted id
      simpa [states, ← Option.isSome_iff_ne_none, same] using there
    | @mounted _ owner viewType key parent course ih =>
      have old : id ≠ owner.nextId := (early.trans_le course.mounted_ids.1).ne
      rw [make_states owner viewType key parent old] at there ⊢
      exact ih (fun listed => unwritten (List.mem_append_left _ listed)) there
    | @unmounted _ owner other _ ih =>
      rw [remove_states] at there ⊢
      split at there
      · exact absurd rfl there
      · rename_i apart
        rw [if_neg apart]
        exact ih (fun listed => unwritten (List.mem_append_left _ listed)) there
  simpa [states, stands] using kept

/-- Between owners whose elements are in their places no element is unmounted twice, and
what is unmounted was there or came, and is gone. -/
theorem unmounted_once {gone gone' : ElementId → Prop} {root root' : Option ElementId}
    {hollow hollow' : List (Opening Listing)} (course : start.Course events owner)
    (placed : Housed gone root hollow start) (housed : Housed gone' root' hollow' owner) :
    (unmountedIds events).Nodup ∧ ∀ id ∈ unmountedIds events,
      ((start.registry id).isSome ∨ start.nextId ≤ id ∧ id < owner.nextId) ∧
        owner.registry id = none := by
  have issued := placed.all_issued
  obtain ⟨ids, distinct, listed, balance⟩ := placed.counted
  obtain ⟨ids', distinct', listed', balance'⟩ := housed.counted
  have counted := course.unmount_count
  obtain ⟨early, _⟩ := course.mounted_ids
  have old {id : ElementId} : id ∈ ids ↔ (start.registry id).isSome :=
    (listed id).trans (by simp [shape])
  have new {id : ElementId} : id ∈ ids' ↔ (owner.registry id).isSome :=
    (listed' id).trans (by simp [shape])
  have fresh {id : ElementId} : id ∈ List.range' start.nextId (owner.nextId - start.nextId) ↔
      start.nextId ≤ id ∧ id < owner.nextId := by
    rw [List.mem_range'_1, Nat.add_sub_cancel' early]
  have once : (ids ++ List.range' start.nextId (owner.nextId - start.nextId)).Nodup := by
    apply List.Nodup.append distinct List.nodup_range'
    intro id earlier later
    exact absurd (issued id (old.mp earlier)) (not_lt.mpr (fresh.mp later).1)
  have covers : ∀ id ∈ ids ++ List.range' start.nextId (owner.nextId - start.nextId),
      id ∉ ids' → id ∈ unmountedIds events := by
    intro id listed missing
    rw [new, Bool.not_eq_true, Option.isSome_eq_false_iff, Option.isNone_iff_eq_none] at missing
    rw [List.mem_append, old, fresh] at listed
    exact course.gone listed missing
  have few : ids'.length + (unmountedIds events).length ≤
      (ids ++ List.range' start.nextId (owner.nextId - start.nextId)).length := by
    have turns := placed.turns
    have turns' := housed.turns
    change start.nextId = start.mountCount + 1 at turns
    change owner.nextId = owner.mountCount + 1 at turns'
    change start.mountCount = start.unmountCount + ids.length at balance
    change owner.mountCount = owner.unmountCount + ids'.length at balance'
    rw [List.length_append, List.length_range', turns, turns']
    omega
  obtain ⟨single, apart⟩ := nodup_of_cover once covers few
  refine ⟨single, fun id listed => ?_⟩
  obtain ⟨came, absent⟩ := apart id listed
  rw [List.mem_append, old, fresh] at came
  rw [new, Bool.not_eq_true, Option.isSome_eq_false_iff, Option.isNone_iff_eq_none] at absent
  exact ⟨came, absent⟩

end Course

end BuildOwner

end Dui
