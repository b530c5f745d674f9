import Dui.Reconcile

/-! What the build layer keeps at every moment, also in the middle of a flush: an
element is subscribed to everything its latest build has read, an element whose
readings are out of date is dirty, and a dirty one is queued. Every primitive of the
owner keeps this on its own, so every computation made of them does. -/
namespace Dui
open Effect BuildOwner

variable {α : Type}

/-- What can be read now under this name by the element. -/
def BuildOwner.valueOf (owner : BuildOwner α) (element : Element α) : Readable → Option α
  | .dependency dependency => (owner.sources dependency).map (·.value)
  | .slot name => element.state name

/-- Everything the latest build has read still has the value it had, as far as it is
still there. -/
def BuildOwner.Fresh (owner : BuildOwner α) (element : Element α) : Prop :=
  ∀ readable value, (readable, value) ∈ element.reads →
    ∀ current, owner.valueOf element readable = some current → current = value

/-- The source has existed, and an environment slot still does if its element does. -/
def BuildOwner.Created (owner : BuildOwner α) : Dependency → Prop
  | .signal id => id < owner.nextSignal
  | .environment element type => element < owner.nextId ∧
    ((owner.registry element).isSome → (owner.sources (.environment element type)).isSome)

/-- The element has read the source, or is noted as depending on it. -/
def Element.Knows (element : Element α) (dependency : Dependency) : Prop :=
  dependency ∈ element.dependencies ∨ ∃ value, (.dependency dependency, value) ∈ element.reads

/-- The bookkeeping of one element. `pending` is what is left of the current pass,
`exempt` are the elements about to be rebuilt, `scopes` those whose builds are running. -/
structure Element.Tracked (owner : BuildOwner α) (pending exempt scopes : List ElementId)
    (id : ElementId) (element : Element α) : Prop where
  generation : element.generation = id
  mounted : id < owner.nextId
  observed : ∀ dependency value, (.dependency dependency, value) ∈ element.reads →
    (owner.sources dependency).isSome → dependency ∈ element.dependencies
  subscribed : ∀ dependency source, dependency ∈ element.dependencies →
    owner.sources dependency = some source → ⟨id, id⟩ ∈ source.subscribers
  created : ∀ dependency, element.Knows dependency → owner.Created dependency
  slots : ∀ name value, (.slot name, value) ∈ element.reads → (element.state name).isSome
  silent : element.rebuild = false → element.reads = [] ∧ element.dependencies = []
  typed : element.rebuild = true → element.viewType.1 = .component
  scope : id ∈ scopes → element.rebuild = true
  settled : id ∉ exempt → owner.Fresh element ∨ element.dirty = true
  armed : element.dirty = true → element.rebuild = true
  queued : element.dirty = true → id ∈ owner.dirty ∨ id ∈ pending

/-- The bookkeeping of the owner. -/
structure BuildOwner.Tracked (pending exempt scopes : List ElementId) (owner : BuildOwner α) :
    Prop where
  elements : ∀ id element, owner.registry id = some element →
    element.Tracked owner pending exempt scopes id
  subscribers : ∀ dependency source, owner.sources dependency = some source →
    ∀ subscriber ∈ source.subscribers, subscriber.generation = subscriber.id
  existing : ∀ dependency, (owner.sources dependency).isSome → owner.Created dependency
  active : ∀ id, owner.active = some id → id ∈ scopes
  bounded : ∀ id ∈ scopes, id < owner.nextId

/-- The element after a change that its readings do not depend on. -/
structure Element.Like (before after : Element α) : Prop where
  generation : after.generation = before.generation
  viewType : after.viewType = before.viewType
  reads : after.reads = before.reads
  dependencies : after.dependencies = before.dependencies
  state : after.state = before.state
  rebuild : after.rebuild = before.rebuild

theorem Element.Like.refl (element : Element α) : element.Like element :=
  ⟨rfl, rfl, rfl, rfl, rfl, rfl⟩

theorem Element.Like.trans {first second third : Element α} (earlier : first.Like second)
    (later : second.Like third) : first.Like third :=
  ⟨later.generation.trans earlier.generation, later.viewType.trans earlier.viewType,
    later.reads.trans earlier.reads, later.dependencies.trans earlier.dependencies,
    later.state.trans earlier.state, later.rebuild.trans earlier.rebuild⟩

/-- An element that has read nothing is up to date. -/
theorem BuildOwner.Fresh.of_silent {owner : BuildOwner α} {element : Element α}
    (silent : element.reads = []) : owner.Fresh element := by
  intro readable value read
  rw [silent] at read
  cases read

namespace BuildOwner
variable {owner next : BuildOwner α} {pending exempt scopes : List ElementId} {id : ElementId}
variable {dependency : Dependency}

theorem registry_update (f : Element α → Element α) (other : ElementId) :
    (owner.updateElement id f).registry other =
      if other = id then (owner.registry other).map f else owner.registry other := rfl

theorem registry_update_self (id : ElementId) :
    (owner.updateElement id fun element => element).registry = owner.registry := by
  funext other
  rw [registry_update, Option.map_id', ite_self]

/-- An element after an update in place is one from before, updated if it is the one. -/
theorem update_element_cases {f : Element α → Element α} {other : ElementId} {after : Element α}
    (mounted : (owner.updateElement id f).registry other = some after) :
    ∃ before, owner.registry other = some before ∧
      ((other = id ∧ after = f before) ∨ (other ≠ id ∧ after = before)) := by
  rw [registry_update] at mounted
  split at mounted
  · obtain ⟨before, held, rfl⟩ := Option.map_eq_some_iff.mp mounted
    exact ⟨before, held, Or.inl ⟨‹_›, rfl⟩⟩
  · exact ⟨after, mounted, Or.inr ⟨‹_›, rfl⟩⟩

theorem registry_update_isSome (f : Element α → Element α) (other : ElementId) :
    ((owner.updateElement id f).registry other).isSome = (owner.registry other).isSome := by
  rw [registry_update]
  split
  · rw [Option.isSome_map]
  · rfl

theorem sources_update (f : DependencySource α → DependencySource α) (other : Dependency) :
    (owner.updateSource dependency f).sources other =
      if other = dependency then (owner.sources other).map f else owner.sources other := rfl

/-- A source after an update in place is one from before, updated if it is the one. -/
theorem update_source_cases {f : DependencySource α → DependencySource α} {other : Dependency}
    {after : DependencySource α}
    (present : (owner.updateSource dependency f).sources other = some after) :
    ∃ before, owner.sources other = some before ∧
      ((other = dependency ∧ after = f before) ∨ (other ≠ dependency ∧ after = before)) := by
  rw [sources_update] at present
  split at present
  · obtain ⟨before, held, rfl⟩ := Option.map_eq_some_iff.mp present
    exact ⟨before, held, Or.inl ⟨‹_›, rfl⟩⟩
  · exact ⟨after, present, Or.inr ⟨‹_›, rfl⟩⟩

theorem sources_update_isSome (f : DependencySource α → DependencySource α) (other : Dependency) :
    ((owner.updateSource dependency f).sources other).isSome = (owner.sources other).isSome := by
  rw [sources_update]
  split
  · rw [Option.isSome_map]
  · rfl

theorem resolve_of {element : Element α} (mounted : owner.registry id = some element)
    {generation : Nat} (named : element.generation = generation) :
    owner.resolve id generation = some element := by
  rw [resolve, mounted, Option.filter_some, if_pos (by simpa using named)]

/-- A source that has existed has so under later identities, as long as what is
mounted and provided stays so. -/
theorem Created.mono (created : owner.Created dependency) (nextId : owner.nextId ≤ next.nextId)
    (nextSignal : owner.nextSignal ≤ next.nextSignal)
    (kept : ∀ element type, dependency = .environment element type →
      element < owner.nextId → (next.registry element).isSome → (owner.registry element).isSome ∧
        ((owner.sources (.environment element type)).isSome →
          (next.sources (.environment element type)).isSome)) : next.Created dependency := by
  cases dependency with
  | signal signal => exact Nat.lt_of_lt_of_le created nextSignal
  | environment element type =>
    refine ⟨Nat.lt_of_lt_of_le created.1 nextId, fun mounted => ?_⟩
    obtain ⟨before, provided⟩ := kept element type rfl created.1 mounted
    exact provided (created.2 before)

/-- The bookkeeping of an element survives a change around it: the sources it knows keep
their values and its subscription. -/
theorem carry {before after : Element α} (tracked : before.Tracked owner pending exempt scopes id)
    (like : before.Like after) (nextId : owner.nextId ≤ next.nextId)
    (created : ∀ other, before.Knows other → owner.Created other → next.Created other)
    (sources : ∀ other source, before.Knows other → next.sources other = some source →
      ∃ earlier, owner.sources other = some earlier ∧ source.value = earlier.value ∧
        (⟨id, id⟩ ∈ earlier.subscribers → ⟨id, id⟩ ∈ source.subscribers))
    (dirty : before.dirty = true → after.dirty = true)
    (marked : after.dirty = true →
      before.dirty = true ∨ (after.rebuild = true ∧ id ∈ next.dirty))
    (listed : id ∈ owner.dirty → id ∈ next.dirty) :
    after.Tracked next pending exempt scopes id where
  generation := like.generation.trans tracked.generation
  mounted := Nat.lt_of_lt_of_le tracked.mounted nextId
  observed other value read present := by
    rw [like.reads] at read
    rw [like.dependencies]
    obtain ⟨source, present⟩ := Option.isSome_iff_exists.mp present
    obtain ⟨earlier, held, _⟩ := sources other source (Or.inr ⟨value, read⟩) present
    exact tracked.observed other value read (by rw [held]; rfl)
  subscribed other source depends present := by
    rw [like.dependencies] at depends
    obtain ⟨earlier, held, _, kept⟩ := sources other source (Or.inl depends) present
    exact kept (tracked.subscribed other earlier depends held)
  created other known := by
    unfold Element.Knows at known
    rw [like.reads, like.dependencies] at known
    exact created other known (tracked.created other known)
  slots := by
    rw [like.reads, like.state]
    exact tracked.slots
  silent := by
    rw [like.rebuild, like.reads, like.dependencies]
    exact tracked.silent
  typed := by
    rw [like.rebuild, like.viewType]
    exact tracked.typed
  scope := by
    rw [like.rebuild]
    exact tracked.scope
  settled required := by
    refine (tracked.settled required).imp (fun fresh => ?_) dirty
    intro readable value read current now
    rw [like.reads] at read
    cases readable with
    | dependency other =>
      obtain ⟨source, present, rfl⟩ := Option.map_eq_some_iff.mp now
      obtain ⟨earlier, held, same, _⟩ := sources other source (Or.inr ⟨value, read⟩) present
      rw [same]
      refine fresh _ value read earlier.value ?_
      simp only [valueOf, held, Option.map_some]
    | slot name =>
      simp only [valueOf, like.state] at now
      exact fresh _ value read current now
  armed flagged := by
    rcases marked flagged with earlier | ⟨armed, _⟩
    · exact like.rebuild.trans (tracked.armed earlier)
    · exact armed
  queued flagged := by
    rcases marked flagged with earlier | ⟨_, queued⟩
    · exact (tracked.queued earlier).imp_left listed
    · exact Or.inl queued

/-- An element that has read nothing and depends on nothing. -/
theorem tracked_unread {element : Element α} (reads : element.reads = [])
    (dependencies : element.dependencies = []) (generation : element.generation = id)
    (mounted : id < owner.nextId)
    (typed : element.rebuild = true → element.viewType.1 = .component)
    (scope : id ∈ scopes → element.rebuild = true)
    (armed : element.dirty = true → element.rebuild = true)
    (queued : element.dirty = true → id ∈ owner.dirty ∨ id ∈ pending) :
    element.Tracked owner pending exempt scopes id where
  generation := generation
  mounted := mounted
  observed := by simp only [reads, List.not_mem_nil, false_implies, implies_true]
  subscribed := by simp only [dependencies, List.not_mem_nil, false_implies, implies_true]
  created _ known := by simp [Element.Knows, reads, dependencies] at known
  slots := by simp only [reads, List.not_mem_nil, false_implies, implies_true]
  silent _ := ⟨reads, dependencies⟩
  typed := typed
  scope := scope
  settled _ := Or.inl (Fresh.of_silent reads)
  armed := armed
  queued := queued

/-- The owner after a change that no reading depends on: nothing is mounted, what was
dirty is, and what has become so is queued. -/
structure Grows (owner next : BuildOwner α) : Prop where
  sources : next.sources = owner.sources
  nextId : next.nextId = owner.nextId
  nextSignal : next.nextSignal = owner.nextSignal
  active : next.active = owner.active
  dirty : ∀ other ∈ owner.dirty, other ∈ next.dirty
  elements : ∀ other after, next.registry other = some after →
    ∃ before, owner.registry other = some before ∧ before.Like after ∧
      (before.dirty = true → after.dirty = true) ∧
      (after.dirty = true →
        before.dirty = true ∨ (after.rebuild = true ∧ other ∈ next.dirty))

theorem Grows.refl (owner : BuildOwner α) : owner.Grows owner :=
  ⟨rfl, rfl, rfl, rfl, fun _ dirty => dirty, fun _ after mounted =>
    ⟨after, mounted, Element.Like.refl after, fun dirty => dirty, Or.inl⟩⟩

theorem Grows.trans {last : BuildOwner α} (first : owner.Grows next) (second : next.Grows last) :
    owner.Grows last := by
  refine ⟨second.sources.trans first.sources, second.nextId.trans first.nextId,
    second.nextSignal.trans first.nextSignal, second.active.trans first.active,
    fun other dirty => second.dirty other (first.dirty other dirty), fun other after mounted => ?_⟩
  obtain ⟨middle, held, later, stays, queued⟩ := second.elements other after mounted
  obtain ⟨before, held, earlier, stayed, listed⟩ := first.elements other middle held
  refine ⟨before, held, earlier.trans later, fun dirty => stays (stayed dirty), fun dirty => ?_⟩
  rcases queued dirty with dirty | queued
  · refine (listed dirty).imp_right fun ⟨armed, queued⟩ => ⟨?_, second.dirty other queued⟩
    rw [later.rebuild]
    exact armed
  · exact Or.inr queued

theorem Grows.mounted (grown : owner.Grows next) (other : ElementId)
    (mounted : (next.registry other).isSome) : (owner.registry other).isSome := by
  obtain ⟨after, mounted⟩ := Option.isSome_iff_exists.mp mounted
  obtain ⟨before, held, _⟩ := grown.elements other after mounted
  rw [held]
  rfl

theorem Grows.created (grown : owner.Grows next) (created : owner.Created dependency) :
    next.Created dependency := by
  refine created.mono (le_of_eq grown.nextId.symm) (le_of_eq grown.nextSignal.symm)
    fun element _ _ _ mounted => ⟨grown.mounted element mounted, fun present => ?_⟩
  rw [grown.sources]
  exact present

/-- Tracking survives a change that no reading depends on. -/
theorem Tracked.grows (tracked : owner.Tracked pending exempt scopes) (grown : owner.Grows next) :
    next.Tracked pending exempt scopes := by
  refine ⟨fun other after mounted => ?_, ?_, fun other present => ?_, ?_, ?_⟩
  · obtain ⟨before, held, like, stays, queued⟩ := grown.elements other after mounted
    have kept := tracked.elements other before held
    refine carry kept like (le_of_eq grown.nextId.symm) (fun _ _ => grown.created)
      (fun known source _ present => ?_) stays queued (grown.dirty other)
    rw [grown.sources] at present
    exact ⟨source, present, rfl, fun listed => listed⟩
  · rw [grown.sources]
    exact tracked.subscribers
  · rw [grown.sources] at present
    exact grown.created (tracked.existing other present)
  · rw [grown.active]
    exact tracked.active
  · rw [grown.nextId]
    exact tracked.bounded

/-- Changing fields of one element that its readings do not depend on. -/
theorem Grows.reshape {f : Element α → Element α}
    (like : ∀ element : Element α, element.Like (f element))
    (dirty : ∀ element : Element α, (f element).dirty = element.dirty) :
    owner.Grows (owner.updateElement id f) := by
  refine ⟨rfl, rfl, rfl, rfl, fun _ dirty => dirty, fun other after mounted => ?_⟩
  obtain ⟨before, held, ⟨_, rfl⟩ | ⟨_, rfl⟩⟩ := update_element_cases mounted
  · refine ⟨before, held, like before, fun flagged => ?_, fun flagged => Or.inl ?_⟩
    · rw [dirty]
      exact flagged
    · rw [dirty] at flagged
      exact flagged
  · exact ⟨after, held, Element.Like.refl after, fun dirty => dirty, Or.inl⟩

theorem Created.update {f : Element α → Element α} (created : owner.Created dependency) :
    (owner.updateElement id f).Created dependency := by
  refine created.mono le_rfl le_rfl fun element _ _ _ mounted => ?_
  rw [registry_update_isSome] at mounted
  exact ⟨mounted, fun present => present⟩

/-- Changing one element in any way: the others keep their bookkeeping, so only the one
is to be looked at. -/
theorem Tracked.patch (tracked : owner.Tracked pending exempt scopes) {f : Element α → Element α}
    {exempted : List ElementId} (others : ∀ other, other ≠ id → other ∉ exempted → other ∉ exempt)
    (changed : ∀ element, owner.registry id = some element →
      element.Tracked owner pending exempt scopes id →
      (f element).Tracked (owner.updateElement id f) pending exempted scopes id) :
    (owner.updateElement id f).Tracked pending exempted scopes := by
  refine ⟨fun other after mounted => ?_, tracked.subscribers,
    fun other present => (tracked.existing other present).update, tracked.active, tracked.bounded⟩
  obtain ⟨before, held, ⟨rfl, rfl⟩ | ⟨different, rfl⟩⟩ := update_element_cases mounted
  · exact changed before held (tracked.elements other before held)
  · have kept := tracked.elements other after held
    have carried : after.Tracked (owner.updateElement id f) pending exempt scopes other :=
      carry kept (Element.Like.refl after) le_rfl (fun _ _ created => created.update)
        (fun _ source _ present => ⟨source, present, rfl, fun listed => listed⟩)
        (fun dirty => dirty) Or.inl fun queued => queued
    exact { carried with
      settled := fun required => carried.settled (others other different required) }

/-- Settling an element that was exempt. -/
theorem Tracked.settle {exempted : List ElementId} (tracked : owner.Tracked pending exempt scopes)
    (settled : ∀ other element, owner.registry other = some element → other ∉ exempted →
      other ∈ exempt → owner.Fresh element ∨ element.dirty = true) :
    owner.Tracked pending exempted scopes := by
  refine { tracked with elements := fun other element mounted => ?_ }
  have kept := tracked.elements other element mounted
  refine { kept with settled := fun required => ?_ }
  by_cases listed : other ∈ exempt
  · exact settled other element mounted required listed
  · exact kept.settled listed

/-! Marking elements dirty. -/

theorem mark_dirty_grows (generation : Nat) : owner.Grows (owner.markDirty id generation) := by
  unfold markDirty
  split
  · exact Grows.refl owner
  · split
    · exact Grows.refl owner
    · refine ⟨rfl, rfl, rfl, rfl, fun _ dirty => List.mem_insert_of_mem dirty,
        fun other after mounted => ?_⟩
      obtain ⟨before, held, ⟨rfl, rfl⟩ | ⟨_, rfl⟩⟩ := update_element_cases mounted
      · refine ⟨before, held, ⟨rfl, rfl, rfl, rfl, rfl, rfl⟩, fun _ => rfl,
          fun _ => Or.inr ⟨?_, List.mem_insert_self⟩⟩
        obtain ⟨stood, _⟩ := Option.filter_eq_some_iff.mp ‹owner.resolve _ _ = some _›
        cases held.symm.trans stood
        exact not_not.mp ‹_›
      · exact ⟨after, held, Element.Like.refl after, fun dirty => dirty, Or.inl⟩

/-- A mounted element that can be rebuilt is dirty after it has been marked. -/
theorem mark_dirty_marks {before after : Element α} (held : owner.registry id = some before)
    (rebuilt : before.rebuild = true)
    (mounted : (owner.markDirty id before.generation).registry id = some after) :
    after.dirty = true := by
  unfold markDirty at mounted
  rw [resolve_of held rfl] at mounted
  simp only [rebuilt, not_true_eq_false, if_false] at mounted
  obtain ⟨_, _, ⟨_, rfl⟩ | ⟨different, _⟩⟩ := update_element_cases mounted
  · rfl
  · exact absurd rfl different

/-- Marking a list of subscribers marks each of them that can be rebuilt. -/
theorem mark_all (subscribers : List Subscriber) : ∀ owner : BuildOwner α,
    (∀ subscriber ∈ subscribers, subscriber.generation = subscriber.id) →
    (∀ other element, owner.registry other = some element → element.generation = other) →
    let next := subscribers.foldl (fun owner subscriber =>
      owner.markDirty subscriber.id subscriber.generation) owner
    owner.Grows next ∧ ∀ subscriber ∈ subscribers, ∀ after,
      next.registry subscriber.id = some after → after.rebuild = true → after.dirty = true := by
  induction subscribers with
  | nil => exact fun owner _ _ => ⟨Grows.refl owner, fun _ listed => by cases listed⟩
  | cons first rest ih =>
    intro owner named generations
    have marked : owner.Grows (owner.markDirty first.id first.generation) := mark_dirty_grows _
    obtain ⟨grown, rest_marked⟩ := ih (owner.markDirty first.id first.generation)
      (fun subscriber listed => named subscriber (List.mem_cons_of_mem _ listed))
      (fun other element mounted => by
        obtain ⟨before, held, like, _⟩ := marked.elements other element mounted
        exact like.generation.trans (generations other before held))
    refine ⟨marked.trans grown, fun subscriber listed after mounted rebuilt => ?_⟩
    rcases List.mem_cons.mp listed with rfl | listed
    · obtain ⟨middle, held, later, stays, _⟩ := grown.elements _ after mounted
      obtain ⟨before, earlier, like, _⟩ := marked.elements _ middle held
      refine stays (mark_dirty_marks earlier ?_ ?_)
      · rw [← like.rebuild, ← later.rebuild]
        exact rebuilt
      · rw [generations _ before earlier]
        rw [named subscriber List.mem_cons_self] at held
        exact held
    · exact rest_marked subscriber listed after mounted rebuilt

/-! Writing and reading a source. -/

theorem Created.updateSource {f : DependencySource α → DependencySource α} {other : Dependency}
    (created : owner.Created other) : (owner.updateSource dependency f).Created other := by
  refine created.mono le_rfl le_rfl fun element _ _ _ mounted => ⟨mounted, fun present => ?_⟩
  rw [sources_update_isSome]
  exact present

/-- A source takes a new value: what has read it is exempt, and subscribed. -/
theorem Tracked.replace (tracked : owner.Tracked pending exempt scopes)
    {source : DependencySource α} (present : owner.sources dependency = some source) (value : α)
    {kept : List Subscriber} (listed : ∀ subscriber ∈ kept, subscriber ∈ source.subscribers)
    (mounted : ∀ other element, owner.registry other = some element →
      ⟨other, other⟩ ∈ source.subscribers → ⟨other, other⟩ ∈ kept) :
    (owner.updateSource dependency fun source =>
      { source with value, subscribers := kept }).Tracked pending
      (exempt ++ source.subscribers.map (·.id)) scopes := by
  refine ⟨fun other element held => ?_, fun other after placed => ?_, fun other placed => ?_,
    tracked.active, tracked.bounded⟩
  · have before := tracked.elements other element held
    refine { before with
      observed := fun known value read live => before.observed known value read ?_
      subscribed := fun known after depends placed => ?_
      created := fun known knows => (before.created known knows).updateSource
      settled := fun required => ?_ }
    · rw [sources_update_isSome] at live
      exact live
    · obtain ⟨earlier, stood, ⟨rfl, rfl⟩ | ⟨_, rfl⟩⟩ := update_source_cases placed
      · cases stood.symm.trans present
        exact mounted other element held (before.subscribed known source depends stood)
      · exact before.subscribed known after depends stood
    · rw [List.mem_append, not_or] at required
      refine (before.settled required.1).imp_left fun fresh readable noted read current now => ?_
      cases readable with
      | slot name => exact fresh _ noted read current now
      | dependency known =>
        obtain ⟨after, placed, rfl⟩ := Option.map_eq_some_iff.mp now
        obtain ⟨earlier, stood, ⟨rfl, rfl⟩ | ⟨_, rfl⟩⟩ := update_source_cases placed
        · -- what has read the source is subscribed, so it is exempt
          have depends := before.observed known noted read (by rw [stood]; rfl)
          have named := before.subscribed known earlier depends stood
          cases stood.symm.trans present
          exact absurd (List.mem_map_of_mem named) required.2
        · refine fresh _ noted read after.value ?_
          simp only [valueOf, stood, Option.map_some]
  · obtain ⟨earlier, stood, ⟨rfl, rfl⟩ | ⟨_, rfl⟩⟩ := update_source_cases placed
    · intro subscriber named
      exact tracked.subscribers other source present subscriber (listed subscriber named)
    · exact tracked.subscribers other after stood
  · rw [sources_update_isSome] at placed
    exact (tracked.existing other placed).updateSource

theorem update_source_twice (f g : DependencySource α → DependencySource α) :
    (owner.updateSource dependency f).updateSource dependency g =
      owner.updateSource dependency fun source => g (f source) := by
  refine congrArg (fun sources => { owner with sources }) (funext fun other => ?_)
  by_cases same : other = dependency
  · rw [if_pos same, if_pos same, sources_update, if_pos same, Option.map_map]
    rfl
  · rw [if_neg same, if_neg same, sources_update, if_neg same]

/-- `Signal::set` and `EnvironmentSlot::update`. -/
theorem Tracked.write [DecidableEq α] (tracked : owner.Tracked pending exempt scopes)
    (dependency : Dependency) (value : α) :
    (owner.write dependency value).Tracked pending exempt scopes := by
  unfold BuildOwner.write
  split
  · exact tracked
  · rename_i source present
    split
    · exact tracked
    · -- the subscribers that are mounted are marked, and the others have read nothing
      rw [notifyDependents, sources_update, if_pos rfl, present, Option.map_some]
      simp only [update_source_twice]
      set mounted := source.subscribers.filter fun subscriber =>
        ((owner.updateSource dependency fun source =>
          { source with value }).resolve subscriber.id subscriber.generation).isSome with filtered
      have replaced : (owner.updateSource dependency fun source =>
          { source with value, subscribers := mounted }).Tracked pending
          (exempt ++ source.subscribers.map (·.id)) scopes := by
        refine tracked.replace present value (fun subscriber listed => List.mem_of_mem_filter listed)
          fun other element held listed => List.mem_filter.mpr ⟨listed, ?_⟩
        have found := resolve_of held (tracked.elements other element held).generation
        exact Option.isSome_iff_exists.mpr ⟨element, found⟩
      obtain ⟨grown, marked⟩ := mark_all mounted _
        (fun subscriber listed => tracked.subscribers dependency source present subscriber
          (List.mem_of_mem_filter listed))
        (fun other element held => (replaced.elements other element held).generation)
      refine (replaced.grows grown).settle fun other after held required listed => ?_
      obtain ⟨before, earlier, like, _⟩ := grown.elements other after held
      rcases List.mem_append.mp listed with listed | listed
      · exact absurd listed required
      · obtain ⟨subscriber, named, rfl⟩ := List.mem_map.mp listed
        cases rebuilt : after.rebuild with
        | false => exact Or.inl (Fresh.of_silent
            (((replaced.grows grown).elements _ after held).silent rebuilt).1)
        | true =>
          refine Or.inr (marked subscriber (List.mem_filter.mpr ⟨named, ?_⟩) after held rebuilt)
          have generation := tracked.subscribers dependency source present subscriber named
          have found := resolve_of earlier
            ((replaced.elements _ before earlier).generation.trans generation.symm)
          exact Option.isSome_iff_exists.mpr ⟨before, found⟩

theorem Tracked.subscribe (tracked : owner.Tracked pending exempt scopes) (dependency : Dependency)
    (id : ElementId) : (owner.subscribe dependency id id).Tracked pending exempt scopes := by
  refine ⟨fun other element held => ?_, fun other after placed => ?_, fun other placed => ?_,
    tracked.active, tracked.bounded⟩
  · have kept := tracked.elements other element held
    refine carry kept (Element.Like.refl element) le_rfl (fun _ _ created => created.updateSource)
      (fun known after _ placed => ?_) (fun dirty => dirty) Or.inl fun queued => queued
    obtain ⟨earlier, stood, ⟨rfl, rfl⟩ | ⟨_, rfl⟩⟩ := update_source_cases placed
    · refine ⟨earlier, stood, by split <;> rfl, fun listed => ?_⟩
      split
      · exact listed
      · exact List.mem_append_left _ listed
    · exact ⟨after, stood, rfl, fun listed => listed⟩
  · obtain ⟨earlier, stood, ⟨rfl, rfl⟩ | ⟨_, rfl⟩⟩ := update_source_cases placed
    · have before := tracked.subscribers other earlier stood
      split
      · exact before
      · intro subscriber listed
        rcases List.mem_append.mp listed with listed | listed
        · exact before subscriber listed
        · rw [List.mem_singleton.mp listed]
    · exact tracked.subscribers other after stood
  · refine (tracked.existing other ?_).updateSource
    rw [BuildOwner.subscribe, sources_update_isSome] at placed
    exact placed

theorem subscribe_subscribes (tracked : owner.Tracked pending exempt scopes)
    {source : DependencySource α}
    (present : (owner.subscribe dependency id id).sources dependency = some source) :
    ⟨id, id⟩ ∈ source.subscribers := by
  obtain ⟨earlier, stood, ⟨_, rfl⟩ | ⟨different, _⟩⟩ := update_source_cases present
  · split
    · obtain ⟨⟨name, generation⟩, listed, same⟩ := List.any_eq_true.mp ‹_›
      have named := tracked.subscribers dependency earlier stood _ listed
      cases of_decide_eq_true same
      cases named
      exact listed
    · exact List.mem_append_right _ List.mem_cons_self
  · exact absurd rfl different

/-- A running build notes a dependency it is subscribed to. -/
theorem Tracked.depend (tracked : owner.Tracked pending exempt scopes) (running : id ∈ scopes)
    (present : (owner.sources dependency).isSome)
    (subscribed : ∀ source, owner.sources dependency = some source →
      ⟨id, id⟩ ∈ source.subscribers) :
    (owner.updateElement id fun element =>
      { element with dependencies := element.dependencies ++ [dependency] }).Tracked pending exempt
      scopes := by
  refine tracked.patch (fun _ _ required => required) fun element held before => ?_
  refine { before with
    observed := fun known value read live =>
      List.mem_append_left _ (before.observed known value read live)
    subscribed := fun known source depends placed => ?_
    created := fun known knows => Created.update ?_
    silent := fun quiet => ?_ }
  · rcases List.mem_append.mp depends with depends | depends
    · exact before.subscribed known source depends placed
    · rw [List.mem_singleton.mp depends] at placed
      exact subscribed source placed
  · rcases knows with depends | ⟨value, read⟩
    · rcases List.mem_append.mp depends with depends | depends
      · exact before.created known (Or.inl depends)
      · rw [List.mem_singleton.mp depends]
        exact tracked.existing dependency present
    · exact before.created known (Or.inr ⟨value, read⟩)
  · exact absurd (quiet.symm.trans (before.scope running)) (by decide)

/-- What a running build may note as read. -/
def Readable.Noted (element : Element α) : Readable → Prop
  | .dependency dependency => dependency ∈ element.dependencies
  | .slot _ => True

/-- A running build notes the value of something it has read. -/
theorem Tracked.noteRead (tracked : owner.Tracked pending exempt scopes) (running : id ∈ scopes)
    {readable : Readable} {value : α} (current : ∀ element, owner.registry id = some element →
      Readable.Noted element readable ∧ owner.valueOf element readable = some value) :
    (owner.noteRead id readable value).Tracked pending exempt scopes := by
  refine tracked.patch (fun _ _ required => required) fun element held before => ?_
  obtain ⟨noted, now⟩ := current element held
  refine { before with
    observed := fun known seen read live => ?_
    created := fun known knows => Created.update ?_
    slots := fun name seen read => ?_
    silent := fun quiet => absurd (quiet.symm.trans (before.scope running)) (by decide)
    settled := fun required => (before.settled required).imp_left fun fresh other seen read => ?_ }
  · rcases List.mem_append.mp read with read | read
    · exact before.observed known seen read live
    · cases List.mem_singleton.mp read
      exact noted
  · rcases knows with depends | ⟨seen, read⟩
    · exact before.created known (Or.inl depends)
    · rcases List.mem_append.mp read with read | read
      · exact before.created known (Or.inr ⟨seen, read⟩)
      · cases List.mem_singleton.mp read
        exact before.created known (Or.inl noted)
  · rcases List.mem_append.mp read with read | read
    · exact before.slots name seen read
    · cases List.mem_singleton.mp read
      exact Option.isSome_iff_exists.mpr ⟨value, now⟩
  · rcases List.mem_append.mp read with read | read
    · exact fresh other seen read
    · cases List.mem_singleton.mp read
      intro later after
      exact Option.some.inj (after.symm.trans now)

/-- The running build subscribes to a source and reads it. -/
theorem Tracked.observe (tracked : owner.Tracked pending exempt scopes) (running : id ∈ scopes)
    {source : DependencySource α} (present : owner.sources dependency = some source) :
    ((owner.observe id dependency).noteRead id (.dependency dependency) source.value).Tracked
      pending exempt scopes := by
  unfold BuildOwner.observe
  cases held : owner.registry id with
  | none =>
    exact tracked.noteRead running fun element mounted => absurd (held.symm.trans mounted) nofun
  | some element =>
    by_cases depends : dependency ∈ element.dependencies
    · simp only [depends, if_true]
      refine tracked.noteRead running fun other mounted => ?_
      cases held.symm.trans mounted
      exact ⟨depends, by simp only [valueOf, present, Option.map_some]⟩
    · simp only [depends, if_false]
      rw [(tracked.elements id element held).generation]
      have subscribed := tracked.subscribe dependency id
      have placed : ∃ after, (owner.subscribe dependency id id).sources dependency = some after ∧
          after.value = source.value := by
        rw [BuildOwner.subscribe, sources_update, if_pos rfl, present, Option.map_some]
        exact ⟨_, rfl, by split <;> rfl⟩
      obtain ⟨after, placed, same⟩ := placed
      refine (subscribed.depend running (by rw [placed]; rfl)
        fun _ => subscribe_subscribes tracked).noteRead running fun other mounted => ?_
      obtain ⟨_, _, ⟨_, rfl⟩ | ⟨different, _⟩⟩ := update_element_cases mounted
      · refine ⟨List.mem_append_right _ List.mem_cons_self, ?_⟩
        show (((owner.subscribe dependency id id).sources dependency).map (·.value)) = _
        rw [placed, Option.map_some, same]
      · exact absurd rfl different

/-! Forgetting what a build has read. -/

/-- The sources after one element has unsubscribed from some of them. -/
structure Unlinks (id : ElementId) (owner next : BuildOwner α) : Prop where
  frame : next = { owner with sources := next.sources }
  present : ∀ other, (next.sources other).isSome = (owner.sources other).isSome
  sources : ∀ other after, next.sources other = some after →
    ∃ before, owner.sources other = some before ∧ after.value = before.value ∧
      (∀ subscriber ∈ after.subscribers, subscriber ∈ before.subscribers) ∧
      ∀ subscriber ∈ before.subscribers, subscriber.id ≠ id → subscriber ∈ after.subscribers

theorem unsubscribe_unlinks (id : ElementId) (dependency : Dependency) :
    Unlinks id owner (owner.unsubscribe id dependency) := by
  refine ⟨rfl, sources_update_isSome _, fun other after placed => ?_⟩
  obtain ⟨before, stood, ⟨rfl, rfl⟩ | ⟨_, rfl⟩⟩ := update_source_cases placed
  · refine ⟨before, stood, rfl, fun subscriber listed => List.mem_of_mem_filter listed,
      fun subscriber listed different => List.mem_filter.mpr ⟨listed, ?_⟩⟩
    exact decide_eq_true different
  · exact ⟨after, stood, rfl, fun _ listed => listed, fun _ listed _ => listed⟩

theorem unsubscribe_all (id : ElementId) (dependencies : List Dependency) :
    ∀ owner : BuildOwner α, Unlinks id owner
      (dependencies.foldl (fun owner dependency => owner.unsubscribe id dependency) owner) := by
  induction dependencies with
  | nil => exact fun owner => ⟨rfl, fun _ => rfl, fun other after placed =>
      ⟨after, placed, rfl, fun _ listed => listed, fun _ listed _ => listed⟩⟩
  | cons first rest ih =>
    intro owner
    have one := @unsubscribe_unlinks α owner id first
    have many := ih (owner.unsubscribe id first)
    refine ⟨?_, fun other => (many.present other).trans (one.present other),
      fun other after placed => ?_⟩
    · rw [List.foldl_cons]
      exact many.frame
    · obtain ⟨middle, placed, later, fewer, kept⟩ := many.sources other after placed
      obtain ⟨before, stood, earlier, few, keep⟩ := one.sources other middle placed
      exact ⟨before, stood, later.trans earlier,
        fun subscriber listed => few subscriber (fewer subscriber listed),
        fun subscriber listed different =>
          kept subscriber (keep subscriber listed different) different⟩

/-- `clear_dependencies`: an element that has forgotten what it read is up to date. -/
theorem Tracked.clear (tracked : owner.Tracked pending (id :: exempt) scopes) :
    (owner.clearDependencies id).Tracked pending exempt scopes := by
  unfold clearDependencies
  cases held : owner.registry id with
  | none =>
    refine tracked.settle fun other element mounted required listed => ?_
    rcases List.mem_cons.mp listed with rfl | listed
    · exact absurd (held.symm.trans mounted) nofun
    · exact absurd listed required
  | some element =>
    simp only
    have unlinked := unsubscribe_all id element.dependencies owner
    generalize element.dependencies.foldl (fun owner dependency =>
      owner.unsubscribe id dependency) owner = next at unlinked
    obtain ⟨frame, present, sources⟩ := unlinked
    have created : ∀ other, owner.Created other → next.Created other := by
      intro other created
      refine created.mono ?_ ?_ fun element type _ _ mounted => ⟨?_, fun live => ?_⟩
      · rw [frame]
      · rw [frame]
      · rw [frame] at mounted
        exact mounted
      · rw [present]
        exact live
    refine ⟨fun other after mounted => ?_, fun other after placed => ?_, fun other live => ?_,
      ?_, ?_⟩
    · obtain ⟨before, earlier, ⟨rfl, rfl⟩ | ⟨different, rfl⟩⟩ := update_element_cases mounted
      · rw [frame] at earlier
        have kept := tracked.elements other before earlier
        refine tracked_unread rfl rfl kept.generation ?_ kept.typed kept.scope kept.armed ?_
        · rw [frame]
          exact kept.mounted
        · rw [frame]
          exact kept.queued
      · rw [frame] at earlier
        have kept := tracked.elements other after earlier
        have carried : after.Tracked (next.updateElement id fun element =>
            { element with dependencies := [], reads := [] }) pending (id :: exempt) scopes
            other := by
          refine carry kept (Element.Like.refl after) ?_ (fun known _ made => (created known made).update)
            (fun known source _ placed => ?_) (fun dirty => dirty) Or.inl ?_
          · rw [frame]
            exact le_rfl
          · obtain ⟨before, stood, same, _, keep⟩ := sources known source placed
            exact ⟨before, stood, same, fun listed => keep _ listed different⟩
          · rw [frame]
            exact fun queued => queued
        exact { carried with settled := fun required => carried.settled (by simp [different, required]) }
    · obtain ⟨before, stood, _, fewer, _⟩ := sources other after placed
      exact fun subscriber listed =>
        tracked.subscribers other before stood subscriber (fewer subscriber listed)
    · refine (created other (tracked.existing other ?_)).update
      rw [← present]
      exact live
    · rw [frame]
      exact tracked.active
    · rw [frame]
      exact tracked.bounded

/-! Sources that come and go. -/

/-- What the elements know after some of them have forgotten a source. -/
structure Forgets (dependency : Dependency) (owner next : BuildOwner α) : Prop where
  frame : next = { owner with registry := next.registry }
  elements : ∀ other after, next.registry other = some after →
    ∃ before, owner.registry other = some before ∧ (after = before ∨
      after = { before with dependencies := before.dependencies.filter (· ≠ dependency) })

theorem forget_forgets (dependency : Dependency) (subscriber : Subscriber) :
    Forgets dependency owner (owner.forgetDependency dependency subscriber) := by
  unfold forgetDependency
  split
  · exact ⟨rfl, fun _ after mounted => ⟨after, mounted, Or.inl rfl⟩⟩
  · refine ⟨rfl, fun other after mounted => ?_⟩
    obtain ⟨before, held, ⟨_, rfl⟩ | ⟨_, rfl⟩⟩ := update_element_cases mounted
    · exact ⟨before, held, Or.inr rfl⟩
    · exact ⟨after, held, Or.inl rfl⟩

theorem forget_all (dependency : Dependency) (subscribers : List Subscriber) :
    ∀ owner : BuildOwner α, Forgets dependency owner (subscribers.foldl
      (fun owner subscriber => owner.forgetDependency dependency subscriber) owner) := by
  induction subscribers with
  | nil => exact fun owner => ⟨rfl, fun _ after mounted => ⟨after, mounted, Or.inl rfl⟩⟩
  | cons first rest ih =>
    intro owner
    have one := @forget_forgets α owner dependency first
    have many := ih (owner.forgetDependency dependency first)
    refine ⟨?_, fun other after mounted => ?_⟩
    · rw [List.foldl_cons, many.frame, one.frame]
    · obtain ⟨middle, held, later⟩ := many.elements other after mounted
      obtain ⟨before, held, earlier⟩ := one.elements other middle held
      refine ⟨before, held, ?_⟩
      rcases later with rfl | rfl
      · exact earlier
      · rcases earlier with rfl | rfl
        · exact Or.inr rfl
        · refine Or.inr ?_
          simp only [List.filter_filter, Bool.and_self]

theorem forgets_source : Forgets dependency owner (owner.forgetSource dependency) := by
  unfold forgetSource
  split
  · exact ⟨rfl, fun _ after mounted => ⟨after, mounted, Or.inl rfl⟩⟩
  · exact forget_all dependency _ owner

/-- A source goes; an environment slot only goes with its element. -/
theorem Tracked.dropSource (tracked : owner.Tracked pending exempt scopes)
    (gone : ∀ element type, dependency = .environment element type →
      owner.registry element = none) :
    (owner.dropSource dependency).Tracked pending exempt scopes := by
  have forgotten := @forgets_source α owner dependency
  unfold BuildOwner.dropSource
  generalize owner.forgetSource dependency = middle at forgotten
  obtain ⟨frame, elements⟩ := forgotten
  simp only
  set next : BuildOwner α := { middle with
    sources := fun other => if other = dependency then none else middle.sources other } with defined
  have remaining : ∀ other source, next.sources other = some source →
      other ≠ dependency ∧ owner.sources other = some source := by
    intro other source placed
    by_cases same : other = dependency
    · simp only [defined, same, if_true] at placed
      cases placed
    · simp only [defined, same, if_false] at placed
      rw [frame] at placed
      exact ⟨same, placed⟩
  have created : ∀ other, owner.Created other → next.Created other := by
    intro other created
    refine created.mono ?_ ?_ fun element type named _ mounted => ?_
    · rw [defined, frame]
    · rw [defined, frame]
    · obtain ⟨after, mounted⟩ := Option.isSome_iff_exists.mp mounted
      obtain ⟨before, held, _⟩ := elements element after mounted
      refine ⟨by rw [held]; rfl, fun live => ?_⟩
      by_cases same : other = dependency
      · exact absurd ((gone element type (same ▸ named)).symm.trans held) nofun
      · rw [named] at same
        simp only [defined, same, if_false]
        rw [frame]
        exact live
  refine ⟨fun other after mounted => ?_, fun other source placed => ?_, fun other live => ?_, ?_, ?_⟩
  · obtain ⟨before, held, changed⟩ := elements other after mounted
    have kept := tracked.elements other before held
    have carried : before.Tracked next pending exempt scopes other := by
      refine carry kept (Element.Like.refl before) ?_ (fun known _ => created known)
        (fun known source _ placed => ⟨source, (remaining known source placed).2, rfl,
          fun listed => listed⟩) (fun dirty => dirty) Or.inl ?_
      · rw [defined, frame]
      · rw [defined, frame]
        exact fun queued => queued
    rcases changed with rfl | rfl
    · exact carried
    · refine { carried with
        observed := fun known value read live => ?_
        subscribed := fun known source depends =>
          carried.subscribed known source (List.mem_of_mem_filter depends)
        created := fun known knows =>
          carried.created known (knows.imp_left List.mem_of_mem_filter)
        silent := fun quiet => ?_ }
      · obtain ⟨source, placed⟩ := Option.isSome_iff_exists.mp live
        exact List.mem_filter.mpr ⟨carried.observed known value read live,
          decide_eq_true (remaining known source placed).1⟩
      · obtain ⟨reads, dependencies⟩ := carried.silent quiet
        exact ⟨reads, by simp only [dependencies, List.filter_nil]⟩
  · exact tracked.subscribers other source (remaining other source placed).2
  · obtain ⟨source, placed⟩ := Option.isSome_iff_exists.mp live
    exact created other (tracked.existing other
      (Option.isSome_iff_exists.mpr ⟨source, (remaining other source placed).2⟩))
  · rw [defined, frame]
    exact tracked.active
  · rw [defined, frame]
    exact tracked.bounded

/-- A source comes that no element knows. -/
theorem Tracked.addSource (tracked : owner.Tracked pending exempt scopes) (comparable : Bool)
    (value : α) (unknown : ∀ other element, owner.registry other = some element →
      ¬ element.Knows dependency)
    (made : (owner.addSource dependency comparable value).Created dependency) :
    (owner.addSource dependency comparable value).Tracked pending exempt scopes := by
  have others : ∀ other, other ≠ dependency →
      (owner.addSource dependency comparable value).sources other = owner.sources other :=
    fun other different => if_neg different
  have created : ∀ other, other ≠ dependency → owner.Created other →
      (owner.addSource dependency comparable value).Created other := by
    intro other different created
    refine created.mono le_rfl le_rfl fun element type named _ mounted => ⟨mounted, fun live => ?_⟩
    rw [others _ (named ▸ different)]
    exact live
  refine ⟨fun other element held => ?_, fun other source placed => ?_, fun other live => ?_,
    tracked.active, tracked.bounded⟩
  · have kept := tracked.elements other element held
    have different : ∀ known, element.Knows known → known ≠ dependency := by
      rintro known knows rfl
      exact unknown other element held knows
    refine carry kept (Element.Like.refl element) le_rfl
      (fun known knows => created known (different known knows))
      (fun known source knows placed => ?_) (fun dirty => dirty) Or.inl fun queued => queued
    rw [others known (different known knows)] at placed
    exact ⟨source, placed, rfl, fun listed => listed⟩
  · by_cases same : other = dependency
    · cases (if_pos same : (owner.addSource dependency comparable value).sources other = _).symm.trans
        placed
      exact fun subscriber listed => by cases listed
    · rw [others other same] at placed
      exact tracked.subscribers other source placed
  · by_cases same : other = dependency
    · rw [same]
      exact made
    · rw [others other same] at live
      exact created other same (tracked.existing other live)

theorem Tracked.createSignal (tracked : owner.Tracked pending exempt scopes) (comparable : Bool)
    (value : α) : (owner.createSignal comparable value).Tracked pending exempt scopes := by
  have later : ∀ other, owner.Created other →
      ({ owner with nextSignal := owner.nextSignal + 1 } : BuildOwner α).Created other :=
    fun other created => created.mono le_rfl (Nat.le_succ _)
      fun _ _ _ _ mounted => ⟨mounted, fun live => live⟩
  have numbered : ({ owner with nextSignal := owner.nextSignal + 1 } : BuildOwner α).Tracked pending
      exempt scopes :=
    ⟨fun other element held => carry (tracked.elements other element held)
        (Element.Like.refl element) le_rfl (fun known _ => later known)
        (fun _ source _ placed => ⟨source, placed, rfl, fun listed => listed⟩) (fun dirty => dirty) Or.inl
        fun queued => queued,
      tracked.subscribers, fun other live => later other (tracked.existing other live),
      tracked.active, tracked.bounded⟩
  refine numbered.addSource comparable value (fun other element held knows => ?_) ?_
  · exact Nat.lt_irrefl _ ((tracked.elements other element held).created _ knows)
  · exact Nat.lt_succ_self owner.nextSignal

/-! Elements that come and go. -/

theorem Tracked.makeElement (tracked : owner.Tracked pending exempt scopes)
    (viewType : ViewKind × TypeToken) (key : Key) (parent : Option ElementId) :
    (owner.makeElement viewType key parent).Tracked pending exempt scopes := by
  have earlier : ∀ other, other ≠ owner.nextId →
      (owner.makeElement viewType key parent).registry other = owner.registry other :=
    fun other different => if_neg different
  have created : ∀ other, owner.Created other →
      (owner.makeElement viewType key parent).Created other := by
    intro other created
    refine created.mono (Nat.le_succ _) le_rfl fun element type _ bounded mounted => ?_
    rw [earlier element (Nat.ne_of_lt bounded)] at mounted
    exact ⟨mounted, fun live => live⟩
  refine ⟨fun other element held => ?_, tracked.subscribers,
    fun other live => created other (tracked.existing other live), tracked.active,
    fun other running => Nat.lt_succ_of_lt (tracked.bounded other running)⟩
  by_cases same : other = owner.nextId
  · cases (if_pos same : (owner.makeElement viewType key parent).registry other = _).symm.trans held
    refine tracked_unread rfl rfl same.symm (same ▸ Nat.lt_succ_self _)
      (fun rebuilt => by cases rebuilt) (fun running => ?_) (fun dirty => by cases dirty)
      (fun dirty => by cases dirty)
    exact absurd (tracked.bounded other running) (same ▸ Nat.lt_irrefl _)
  · rw [earlier other same] at held
    have kept := tracked.elements other element held
    exact carry kept (Element.Like.refl element) (Nat.le_succ _) (fun known _ => created known)
      (fun _ source _ placed => ⟨source, placed, rfl, fun listed => listed⟩) (fun dirty => dirty)
      Or.inl fun queued => queued

/-- An element leaves the registry and the queue. -/
theorem Tracked.erase (tracked : owner.Tracked pending exempt scopes) (id : ElementId)
    (unmountCount : Nat) :
    ({ owner with
      dirty := owner.dirty.filter (· ≠ id)
      registry := fun other => if other = id then none else owner.registry other
      unmountCount } : BuildOwner α).Tracked pending exempt scopes := by
  set next : BuildOwner α := { owner with
    dirty := owner.dirty.filter (· ≠ id)
    registry := fun other => if other = id then none else owner.registry other
    unmountCount } with defined
  have remaining : ∀ other element, next.registry other = some element →
      other ≠ id ∧ owner.registry other = some element := by
    intro other element held
    by_cases same : other = id
    · simp only [defined, same, if_true] at held
      cases held
    · simp only [defined, same, if_false] at held
      exact ⟨same, held⟩
  have created : ∀ other, owner.Created other → next.Created other := by
    intro other created
    refine created.mono le_rfl le_rfl fun element _ _ _ mounted => ?_
    obtain ⟨after, mounted⟩ := Option.isSome_iff_exists.mp mounted
    rw [(remaining element after mounted).2]
    exact ⟨rfl, fun live => live⟩
  refine ⟨fun other element held => ?_, tracked.subscribers,
    fun other live => created other (tracked.existing other live), tracked.active, tracked.bounded⟩
  obtain ⟨different, held⟩ := remaining other element held
  have kept := tracked.elements other element held
  refine carry kept (Element.Like.refl element) le_rfl (fun known _ => created known)
    (fun _ source _ placed => ⟨source, placed, rfl, fun listed => listed⟩) (fun dirty => dirty)
    Or.inl fun queued => ?_
  exact List.mem_filter.mpr ⟨queued, decide_eq_true different⟩

/-- Dropping sources mounts nothing. -/
theorem drop_source_unmounted (gone : owner.registry id = none) :
    (owner.dropSource dependency).registry id = none := by
  have forgotten := @forgets_source α owner dependency
  cases held : (owner.dropSource dependency).registry id with
  | none => rfl
  | some element =>
    obtain ⟨_, mounted, _⟩ := forgotten.elements id element held
    exact absurd (gone.symm.trans mounted) nofun

theorem Tracked.dropSlots (types : List TypeToken) : ∀ owner : BuildOwner α,
    owner.Tracked pending exempt scopes → owner.registry id = none →
    (types.foldl (fun owner type => owner.dropSource (.environment id type)) owner).Tracked pending
      exempt scopes := by
  induction types with
  | nil => exact fun _ tracked _ => tracked
  | cons first rest ih =>
    intro owner tracked gone
    refine ih _ (tracked.dropSource fun element type named => ?_) (drop_source_unmounted gone)
    cases named
    exact gone

theorem Tracked.removeElement (tracked : owner.Tracked pending exempt scopes) (id : ElementId) :
    (owner.removeElement id).Tracked pending exempt scopes := by
  have cleared : (owner.clearDependencies id).Tracked pending exempt scopes := by
    refine Tracked.clear (tracked.settle fun other element held required listed => ?_)
    exact absurd (List.mem_cons_of_mem id listed) required
  exact Tracked.dropSlots _ _ (cleared.erase id _) (if_pos rfl)

/-! Updating an element. -/

/-- What `reconcile_child` does first: the element is exempt until its view has been
updated, and one that was not dirty is up to date. -/
theorem Tracked.beginUpdate (tracked : owner.Tracked pending exempt scopes) (id : ElementId) :
    (owner.beginUpdate id).Tracked pending (id :: exempt) scopes ∧
      ∀ element, (owner.beginUpdate id).registry id = some element → id ∉ exempt →
        element.rebuildingDirty = false → (owner.beginUpdate id).Fresh element := by
  have grown : ∀ other element, (owner.beginUpdate id).registry other = some element →
      ∃ before, owner.registry other = some before ∧
        ((other = id ∧ element = { before with
          updateCount := before.updateCount + 1
          rebuildingDirty := before.dirty
          dirty := false }) ∨ (other ≠ id ∧ element = before)) :=
    fun other element held => update_element_cases held
  refine ⟨⟨fun other element held => ?_, tracked.subscribers,
    fun other live => Created.update (tracked.existing other live), tracked.active,
    tracked.bounded⟩, fun element held required clean => ?_⟩
  · obtain ⟨before, earlier, ⟨rfl, rfl⟩ | ⟨different, rfl⟩⟩ := grown other element held
    · have kept := tracked.elements other before earlier
      exact { kept with
        created := fun known knows => Created.update (kept.created known knows)
        settled := fun required => absurd List.mem_cons_self required
        armed := fun dirty => by cases dirty
        queued := fun dirty => by cases dirty }
    · have kept := tracked.elements other element earlier
      exact { kept with
        created := fun known knows => Created.update (kept.created known knows)
        settled := fun required =>
          kept.settled fun listed => required (List.mem_cons_of_mem _ listed)
        queued := fun dirty => (kept.queued dirty).imp_left fun queued =>
          List.mem_filter.mpr ⟨queued, decide_eq_true different⟩ }
  · obtain ⟨before, earlier, ⟨_, rfl⟩ | ⟨different, _⟩⟩ := grown id element held
    · rcases (tracked.elements id before earlier).settled required with fresh | dirty
      · exact fresh
      · exact absurd (dirty.symm.trans clean) (by decide)
    · exact absurd rfl different

/-- `BuildContext::state`: a slot that has been read keeps its value. -/
theorem Tracked.declareState (tracked : owner.Tracked pending exempt scopes) (id : ElementId)
    (slot : String) (initial : α) :
    (owner.declareState id slot initial).Tracked pending exempt scopes := by
  refine tracked.patch (fun _ _ required => required) fun element held before => ?_
  have kept : ∀ name value, element.state name = some value →
      (if name = slot then some ((element.state name).getD initial) else element.state name) =
        some value := by
    intro name value stood
    split
    · rw [stood, Option.getD_some]
    · exact stood
  refine { before with
    created := fun known knows => (before.created known knows).update
    slots := fun name value read => ?_
    settled := fun required =>
      (before.settled required).imp_left fun fresh readable value read current now => ?_ }
  · obtain ⟨stood, known⟩ := Option.isSome_iff_exists.mp (before.slots name value read)
    exact Option.isSome_iff_exists.mpr ⟨stood, kept name stood known⟩
  · cases readable with
    | dependency known => exact fresh _ value read current now
    | slot name =>
      obtain ⟨stood, known⟩ := Option.isSome_iff_exists.mp (before.slots name value read)
      have same : current = stood := Option.some.inj (now.symm.trans (kept name stood known))
      rw [same]
      exact fresh _ value read stood known

/-- `StateHandle::set`: the element whose slot is written is dirty, or has read nothing. -/
theorem Tracked.writeState (tracked : owner.Tracked pending exempt scopes) (handle : StateHandle)
    (value : α) : (owner.writeState handle value).Tracked pending exempt scopes := by
  unfold BuildOwner.writeState
  split
  · exact tracked
  · rename_i element found
    have written : (owner.updateElement handle.element fun element =>
        { element with
          state := fun other => if other = handle.slot then some value else element.state other
        }).Tracked pending (handle.element :: exempt) scopes := by
      refine tracked.patch (fun _ _ required listed => required (List.mem_cons_of_mem _ listed))
        fun element held before => ?_
      refine { before with
        created := fun known knows => (before.created known knows).update
        slots := fun name value read => ?_
        settled := fun required => absurd List.mem_cons_self required }
      show (if name = handle.slot then _ else element.state name).isSome = true
      split
      · rfl
      · exact before.slots name value read
    refine (written.grows (mark_dirty_grows handle.generation)).settle
      fun other after held required listed => ?_
    rcases List.mem_cons.mp listed with rfl | listed
    · have kept := (written.grows (mark_dirty_grows handle.generation)).elements _ after held
      cases rebuilt : after.rebuild with
      | false => exact Or.inl (Fresh.of_silent (kept.silent rebuilt).1)
      | true =>
        obtain ⟨before, earlier, like, _⟩ :=
          (mark_dirty_grows handle.generation).elements _ after held
        obtain ⟨mounted, named⟩ := Option.filter_eq_some_iff.mp found
        obtain ⟨first, stood, ⟨_, same⟩ | ⟨different, _⟩⟩ := update_element_cases earlier
        · cases stood.symm.trans mounted
          have generation : before.generation = handle.generation := by
            rw [same]
            exact of_decide_eq_true named
          refine Or.inr (mark_dirty_marks earlier (like.rebuild ▸ rebuilt) ?_)
          rw [generation]
          exact held
        · exact absurd rfl different
    · exact absurd listed required

theorem Tracked.setEnvironment [DecidableEq α] (tracked : owner.Tracked pending exempt scopes)
    (program : Program α) (id : ElementId) (type : TypeToken) (value : α) :
    (owner.setEnvironment program id type value).Tracked pending exempt scopes := by
  unfold BuildOwner.setEnvironment
  split
  · exact tracked
  · exact tracked.write _ value
  · rename_i element held absent
    -- no element knows the slot, since it would be there with its element
    have unknown : ∀ known : Dependency, owner.Created known → known ≠ .environment id type := by
      rintro known created rfl
      have live := created.2 (by rw [held]; rfl)
      rw [absent] at live
      cases live
    have provided : (owner.updateElement id fun element =>
        { element with provided := element.provided ++ [type] }).Tracked pending exempt scopes :=
      tracked.grows (Grows.reshape (fun _ => ⟨rfl, rfl, rfl, rfl, rfl, rfl⟩) fun _ => rfl)
    refine provided.addSource _ value (fun other after mounted knows => ?_) ?_
    · obtain ⟨before, stood, ⟨rfl, rfl⟩ | ⟨_, rfl⟩⟩ := update_element_cases mounted
      · exact unknown _ ((tracked.elements other before stood).created _ knows) rfl
      · exact unknown _ ((tracked.elements other after stood).created _ knows) rfl
    · refine ⟨(tracked.elements id element held).mounted, fun _ => ?_⟩
      exact Option.isSome_iff_exists.mpr ⟨_, if_pos rfl⟩

/-- A component gets its rebuild function. -/
theorem Tracked.arm (tracked : owner.Tracked pending exempt scopes)
    (typed : ∀ element, owner.registry id = some element → element.viewType.1 = .component) :
    (owner.updateElement id fun element => { element with rebuild := true }).Tracked pending exempt
      scopes := by
  refine tracked.patch (fun _ _ required => required) fun element held before => ?_
  exact { before with
    created := fun known knows => (before.created known knows).update
    silent := fun quiet => by cases quiet
    typed := fun _ => typed element held
    scope := fun _ => rfl
    armed := fun _ => rfl }

/-- A build starts running. -/
theorem Tracked.enter (tracked : owner.Tracked pending exempt scopes) (bounded : id < owner.nextId)
    (armed : ∀ element, owner.registry id = some element → element.rebuild = true) :
    ({ owner with active := some id } : BuildOwner α).Tracked pending exempt (id :: scopes) := by
  refine ⟨fun other element held => ?_, tracked.subscribers, tracked.existing,
    fun other active => ?_, fun other running => ?_⟩
  · have kept := tracked.elements other element held
    refine { kept with scope := fun running => ?_ }
    rcases List.mem_cons.mp running with rfl | running
    · exact armed element held
    · exact kept.scope running
  · cases active
    exact List.mem_cons_self
  · rcases List.mem_cons.mp running with rfl | running
    · exact bounded
    · exact tracked.bounded other running

/-- A build has run. -/
theorem Tracked.leave (tracked : owner.Tracked pending exempt (id :: scopes))
    {previous : Option ElementId} (outer : ∀ other, previous = some other → other ∈ scopes) :
    ({ owner with active := previous } : BuildOwner α).Tracked pending exempt scopes :=
  ⟨fun other element held =>
      have kept := tracked.elements other element held
      { kept with scope := fun running => kept.scope (List.mem_cons_of_mem _ running) },
    tracked.subscribers, tracked.existing, outer,
    fun other running => tracked.bounded other (List.mem_cons_of_mem _ running)⟩

/-- A pass takes over what was queued. -/
theorem Tracked.beginPass (tracked : owner.Tracked [] exempt scopes) {pass : List ElementId}
    (taken : ∀ other ∈ owner.dirty, other ∈ pass) :
    ({ owner with dirty := [] } : BuildOwner α).Tracked pass exempt scopes := by
  refine { tracked with elements := fun other element held => ?_ }
  have kept := tracked.elements other element held
  refine { kept with queued := fun dirty => Or.inr ?_ }
  rcases kept.queued dirty with queued | queued
  · exact taken other queued
  · cases queued

/-- A pass is done with an element that is not to be rebuilt. -/
theorem Tracked.skip (tracked : owner.Tracked (id :: pending) exempt scopes)
    (clean : needsRebuild owner id = false) : owner.Tracked pending exempt scopes := by
  refine { tracked with elements := fun other element held => ?_ }
  have kept := tracked.elements other element held
  refine { kept with queued := fun dirty => (kept.queued dirty).imp_right fun listed => ?_ }
  rcases List.mem_cons.mp listed with rfl | listed
  · rw [needsRebuild, held, Option.any_some, dirty, kept.armed dirty] at clean
    cases clean
  · exact listed

/-- A pass comes to an element that is to be rebuilt. -/
theorem Tracked.visit (tracked : owner.Tracked (id :: pending) exempt scopes) :
    (owner.updateElement id fun element => { element with dirty := false }).Tracked pending
      (id :: exempt) scopes := by
  refine ⟨fun other after mounted => ?_, tracked.subscribers,
    fun other live => Created.update (tracked.existing other live), tracked.active, tracked.bounded⟩
  obtain ⟨before, held, ⟨rfl, rfl⟩ | ⟨different, rfl⟩⟩ := update_element_cases mounted
  · have kept := tracked.elements other before held
    exact { kept with
      created := fun known knows => Created.update (kept.created known knows)
      settled := fun required => absurd List.mem_cons_self required
      armed := fun dirty => by cases dirty
      queued := fun dirty => by cases dirty }
  · have kept := tracked.elements other after held
    refine { kept with
      created := fun known knows => Created.update (kept.created known knows)
      settled := fun required => kept.settled fun listed => required (List.mem_cons_of_mem _ listed)
      queued := fun dirty => (kept.queued dirty).imp_right fun listed => ?_ }
    exact (List.mem_cons.mp listed).resolve_left different

end BuildOwner

end Dui
