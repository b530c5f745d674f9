import Mathlib.Data.List.Nodup
import Dui.BuildModel
import Dui.Transition

/-! Who observes which source. A source lists its subscribers and an element lists its
dependencies; both sides are edited separately, by several owners that share the sources,
and in any order. -/
namespace Dui
open Transition

/-- `DependencySource::Subscriber`. -/
structure Subscription (O : Type) where
  owner : O
  id : ElementId
  generation : Nat
  deriving DecidableEq, Repr

/-- What the sources have to do with in an element. -/
structure Observer (S : Type) where
  generation : Nat
  dependencies : List S := []
  /-- The slots of `environment_`. They are sources too, and go with the element. -/
  environment : List S := []
  deriving DecidableEq, Repr

/-- The elements of all owners, and the sources with their `subscribers_`. -/
structure Subscriptions (O S : Type) where
  registry : O → ElementId → Option (Observer S) := fun _ _ => none
  nextId : O → ElementId := fun _ => 1
  subscribers : S → Option (List (Subscription O)) := fun _ => none

namespace Subscriptions
variable {O S : Type} [DecidableEq O] [DecidableEq S]

/-- Changes one element in place. -/
def updateObserver (world : Subscriptions O S) (owner : O) (id : ElementId)
    (f : Observer S → Observer S) : Subscriptions O S :=
  { world with
    registry := fun other otherId => if other = owner ∧ otherId = id
      then (world.registry other otherId).map f else world.registry other otherId }

/-- Changes the subscribers of one source in place. -/
def updateSubscribers (world : Subscriptions O S) (source : S)
    (f : List (Subscription O) → List (Subscription O)) : Subscriptions O S :=
  { world with
    subscribers := fun other => if other = source then (world.subscribers other).map f
      else world.subscribers other }

/-- `BuildOwner::resolve`. -/
def resolve (world : Subscriptions O S) (subscription : Subscription O) : Option (Observer S) :=
  (world.registry subscription.owner subscription.id).filter
    (·.generation = subscription.generation)

/-- `DependencySource::subscribe`. -/
def subscribe (world : Subscriptions O S) (source : S) (owner : O) (id : ElementId)
    (generation : Nat) : Subscriptions O S :=
  world.updateSubscribers source fun subscribers =>
    if subscribers.any fun subscriber => subscriber.owner = owner ∧ subscriber.id = id then
      subscribers
    else subscribers ++ [⟨owner, id, generation⟩]

/-- `DependencySource::unsubscribe`. -/
def unsubscribe (world : Subscriptions O S) (owner : O) (id : ElementId) (source : S) :
    Subscriptions O S :=
  world.updateSubscribers source fun subscribers =>
    subscribers.filter fun subscriber => ¬ (subscriber.owner = owner ∧ subscriber.id = id)

/-- What `DependencySource::notify_dependents` leaves of the subscribers: those it has
marked dirty. -/
def notifyDependents (world : Subscriptions O S) (source : S) : Subscriptions O S :=
  world.updateSubscribers source fun subscribers =>
    subscribers.filter fun subscriber => (world.resolve subscriber).isSome

/-- `BuildContext::observe`. Observing a source that is gone, or in the name of an element
that is, has no defined outcome. -/
def observe (world : Subscriptions O S) (owner : O) (id : ElementId) (source : S) :
    Option (Subscriptions O S) :=
  match world.registry owner id, world.subscribers source with
  | some element, some _ =>
    if source ∈ element.dependencies then some world
    else some <| (world.updateObserver owner id fun element =>
      { element with dependencies := element.dependencies ++ [source] }).subscribe source owner id
        element.generation
  | _, _ => none

/-- `BuildOwner::clear_dependencies`. -/
def clearDependencies (world : Subscriptions O S) (owner : O) (id : ElementId) :
    Subscriptions O S :=
  match world.registry owner id with
  | none => world
  | some element =>
    (element.dependencies.foldl (fun world source => world.unsubscribe owner id source)
      world).updateObserver owner id fun element => { element with dependencies := [] }

/-- `BuildOwner::forget_dependency`. -/
def forgetDependency (world : Subscriptions O S) (source : S) (subscriber : Subscription O) :
    Subscriptions O S :=
  match world.resolve subscriber with
  | none => world
  | some _ =>
    world.updateObserver subscriber.owner subscriber.id fun element =>
      { element with dependencies := element.dependencies.filter (· ≠ source) }

/-- `~DependencySource`. -/
def destroySource (world : Subscriptions O S) (source : S) : Subscriptions O S :=
  match world.subscribers source with
  | none => world
  | some subscribers =>
    let forgotten := subscribers.foldl (fun world subscriber =>
      world.forgetDependency source subscriber) world
    { forgotten with
      subscribers := fun other => if other = source then none else forgotten.subscribers other }

/-- A source comes into being, where there is none. -/
def createSource (world : Subscriptions O S) (source : S) : Option (Subscriptions O S) :=
  match world.subscribers source with
  | some _ => none
  | none => some { world with
      subscribers := fun other => if other = source then some [] else world.subscribers other }

/-- `ElementAccess::set_environment`, for a slot that is new. -/
def provide (world : Subscriptions O S) (owner : O) (id : ElementId) (source : S) :
    Option (Subscriptions O S) :=
  match world.registry owner id with
  | none => none
  | some _ => (world.updateObserver owner id fun element =>
      { element with environment := element.environment ++ [source] }).createSource source

/-- `BuildOwner::make_element`. -/
def makeElement (world : Subscriptions O S) (owner : O) : Subscriptions O S :=
  { world with
    registry := fun other id => if other = owner ∧ id = world.nextId owner then
        some { generation := world.nextId owner }
      else world.registry other id
    nextId := fun other => if other = owner then world.nextId owner + 1 else world.nextId other }

/-- The end of `BuildOwner::unmount` for one element: its slots go with it. -/
def removeElement (world : Subscriptions O S) (owner : O) (id : ElementId) : Subscriptions O S :=
  match world.registry owner id with
  | none => world
  | some element =>
    let cleared := world.clearDependencies owner id
    element.environment.foldl destroySource { cleared with
      registry := fun other otherId => if other = owner ∧ otherId = id then none
        else cleared.registry other otherId }

end Subscriptions

/-- What happens to the sources and the elements. A build begins by forgetting what the
last one has observed, and observes until it returns or throws. -/
inductive SubscriptionAction (O S : Type) where
  | mount (owner : O)
  | beginBuild (owner : O) (id : ElementId)
  | observe (owner : O) (id : ElementId) (source : S)
  | write (source : S)
  | provide (owner : O) (id : ElementId) (source : S)
  | create (source : S)
  | destroy (source : S)
  | unmount (owner : O) (id : ElementId)

variable {O S : Type} [DecidableEq O] [DecidableEq S]

def subscriptionStep (world : Subscriptions O S) :
    SubscriptionAction O S → Option (Subscriptions O S)
  | .mount owner => some (world.makeElement owner)
  | .beginBuild owner id => some (world.clearDependencies owner id)
  | .observe owner id source => world.observe owner id source
  | .write source => some (world.notifyDependents source)
  | .provide owner id source => world.provide owner id source
  | .create source => world.createSource source
  | .destroy source => some (world.destroySource source)
  | .unmount owner id => some (world.removeElement owner id)

/-- The owners and their sources, from the moment on when nothing is mounted. -/
def subscriptionMachine (O S : Type) [DecidableEq O] [DecidableEq S] :
    Machine (Subscriptions O S) (SubscriptionAction O S) where
  init world := world = {}
  step := subscriptionStep

/-- Both sides name the same pairs, each once. -/
structure Subscriptions.Matched (world : Subscriptions O S) : Prop where
  pairs : ∀ source owner id,
    (∃ subscribers, world.subscribers source = some subscribers ∧
      ∃ subscriber ∈ subscribers, subscriber.owner = owner ∧ subscriber.id = id) ↔
    ∃ element, world.registry owner id = some element ∧ source ∈ element.dependencies
  subscribersOnce : ∀ source subscribers, world.subscribers source = some subscribers →
    (subscribers.map fun subscriber => (subscriber.owner, subscriber.id)).Nodup
  dependenciesOnce : ∀ owner id element, world.registry owner id = some element →
    element.dependencies.Nodup
  /-- No dependency is left on a source that is gone. -/
  present : ∀ owner id element, world.registry owner id = some element →
    ∀ source ∈ element.dependencies, (world.subscribers source).isSome
  /-- No subscriber is left that is gone, so none of them is notified. -/
  mounted : ∀ source subscribers, world.subscribers source = some subscribers →
    ∀ subscriber ∈ subscribers, (world.resolve subscriber).isSome

namespace Subscriptions
variable {world next : Subscriptions O S} {owner : O} {id : ElementId} {source : S}

/-- What every change of the two sides keeps, with the generations that connect them. -/
structure Linked (world : Subscriptions O S) : Prop where
  bounded : ∀ owner id element, world.registry owner id = some element → id < world.nextId owner
  listed : ∀ source subscribers, world.subscribers source = some subscribers →
    ∀ subscriber ∈ subscribers, ∃ element,
      world.registry subscriber.owner subscriber.id = some element ∧
      element.generation = subscriber.generation ∧ source ∈ element.dependencies
  held : ∀ owner id element, world.registry owner id = some element →
    ∀ source ∈ element.dependencies, ∃ subscribers,
      world.subscribers source = some subscribers ∧ ⟨owner, id, element.generation⟩ ∈ subscribers
  subscribersOnce : ∀ source subscribers, world.subscribers source = some subscribers →
    subscribers.Nodup
  dependenciesOnce : ∀ owner id element, world.registry owner id = some element →
    element.dependencies.Nodup

omit [DecidableEq O] [DecidableEq S] in
theorem resolve_of {subscriber : Subscription O} {element : Observer S}
    (held : world.registry subscriber.owner subscriber.id = some element)
    (named : element.generation = subscriber.generation) :
    world.resolve subscriber = some element := by
  rw [resolve, held, Option.filter_some, if_pos (by simpa using named)]

omit [DecidableEq O] [DecidableEq S] in
/-- Linked sides name the same pairs. -/
theorem Linked.matched (linked : world.Linked) : world.Matched where
  pairs source owner id := by
    constructor
    · rintro ⟨subscribers, listed, subscriber, among, rfl, rfl⟩
      obtain ⟨element, held, _, depends⟩ := linked.listed source subscribers listed subscriber among
      exact ⟨element, held, depends⟩
    · rintro ⟨element, held, depends⟩
      obtain ⟨subscribers, listed, among⟩ := linked.held owner id element held source depends
      exact ⟨subscribers, listed, _, among, rfl, rfl⟩
  subscribersOnce source subscribers listed := by
    refine List.Nodup.map_on ?_ (linked.subscribersOnce source subscribers listed)
    intro first among second amongst same
    obtain ⟨element, held, generation, _⟩ := linked.listed source subscribers listed first among
    obtain ⟨other, kept, named, _⟩ := linked.listed source subscribers listed second amongst
    obtain ⟨sameOwner, sameId⟩ := Prod.mk.inj same
    rw [← sameOwner, ← sameId, held] at kept
    cases kept
    obtain ⟨_, _, _⟩ := first
    obtain ⟨_, _, _⟩ := second
    simp_all
  dependenciesOnce := linked.dependenciesOnce
  present owner id element held source depends := by
    obtain ⟨subscribers, listed, _⟩ := linked.held owner id element held source depends
    rw [listed]
    rfl
  mounted source subscribers listed subscriber among := by
    obtain ⟨element, held, named, _⟩ := linked.listed source subscribers listed subscriber among
    rw [resolve_of held named]
    rfl

omit [DecidableEq O] [DecidableEq S] in
theorem linked_initially : ({} : Subscriptions O S).Linked where
  bounded _ _ _ held := by cases held
  listed _ _ listed := by cases listed
  held _ _ _ held := by cases held
  subscribersOnce _ _ listed := by cases listed
  dependenciesOnce _ _ _ held := by cases held

omit [DecidableEq S] in
/-- An element after an update in place is one from before, updated if it is the one. -/
theorem update_observer_cases {f : Observer S → Observer S} {other : O} {otherId : ElementId}
    {after : Observer S}
    (held : (world.updateObserver owner id f).registry other otherId = some after) :
    ∃ before, world.registry other otherId = some before ∧
      ((other = owner ∧ otherId = id ∧ after = f before) ∨
        (¬ (other = owner ∧ otherId = id) ∧ after = before)) := by
  simp only [updateObserver] at held
  split at held
  · obtain ⟨before, found, rfl⟩ := Option.map_eq_some_iff.mp held
    exact ⟨before, found, Or.inl ⟨‹_ ∧ _›.1, ‹_ ∧ _›.2, rfl⟩⟩
  · exact ⟨after, held, Or.inr ⟨‹_›, rfl⟩⟩

omit [DecidableEq S] in
theorem observer_updated {f : Observer S → Observer S} {element : Observer S}
    (held : world.registry owner id = some element) :
    (world.updateObserver owner id f).registry owner id = some (f element) := by
  simp only [updateObserver, and_self, if_true, held, Option.map_some]

omit [DecidableEq S] in
theorem observer_kept {f : Observer S → Observer S} {other : O} {otherId : ElementId}
    (different : ¬ (other = owner ∧ otherId = id)) :
    (world.updateObserver owner id f).registry other otherId = world.registry other otherId := by
  simp only [updateObserver, if_neg different]

/-- An element of its owner's that is new to a source is added on both sides. -/
theorem Linked.observe (linked : world.Linked)
    (observed : world.observe owner id source = some next) : next.Linked := by
  unfold Subscriptions.observe at observed
  split at observed
  case h_2 => cases observed
  case h_1 element subscribers held listed =>
    split at observed
    case isTrue =>
      cases observed
      exact linked
    case isFalse new =>
      cases observed
      -- By agreement the source does not list the element either.
      have absent : ¬ subscribers.any
          (fun subscriber => subscriber.owner = owner ∧ subscriber.id = id) = true := by
        intro found
        obtain ⟨subscriber, among, same⟩ := List.any_eq_true.mp found
        obtain ⟨rfl, rfl⟩ := of_decide_eq_true same
        obtain ⟨_, kept, _, depends⟩ := linked.listed source subscribers listed subscriber among
        rw [held] at kept
        cases kept
        exact new depends
      have unlisted : ⟨owner, id, element.generation⟩ ∉ subscribers := fun among =>
        absent (List.any_eq_true.mpr ⟨_, among, decide_eq_true ⟨rfl, rfl⟩⟩)
      have subscribed : ∀ other, (((world.updateObserver owner id fun element =>
            { element with dependencies := element.dependencies ++ [source] }).subscribe source
            owner id element.generation).subscribers other) =
          if other = source then some (subscribers ++ [⟨owner, id, element.generation⟩])
          else world.subscribers other := by
        intro other
        simp only [subscribe, updateSubscribers, updateObserver]
        by_cases same : other = source
        · subst same
          rw [if_pos rfl, if_pos rfl, listed, Option.map_some, if_neg absent]
        · rw [if_neg same, if_neg same]
      constructor
      · intro other otherId after kept
        obtain ⟨before, kept, _⟩ := update_observer_cases kept
        exact linked.bounded other otherId before kept
      · intro other others now subscriber among
        rw [subscribed] at now
        split at now
        case isTrue same =>
          subst same
          cases now
          rcases List.mem_append.mp among with among | among
          · obtain ⟨found, kept, generation, depends⟩ :=
              linked.listed other subscribers listed subscriber among
            refine ⟨found, ?_, generation, depends⟩
            refine (observer_kept ?_).trans kept
            rintro ⟨rfl, rfl⟩
            rw [held] at kept
            cases kept
            exact new depends
          · cases List.mem_singleton.mp among
            exact ⟨_, observer_updated held, rfl, List.mem_append_right _ (.head _)⟩
        case isFalse different =>
          obtain ⟨found, kept, generation, depends⟩ :=
            linked.listed other others now subscriber among
          by_cases same : subscriber.owner = owner ∧ subscriber.id = id
          · obtain ⟨rfl, rfl⟩ := same
            rw [held] at kept
            cases kept
            exact ⟨_, observer_updated held, generation, List.mem_append_left _ depends⟩
          · exact ⟨found, (observer_kept same).trans kept, generation, depends⟩
      · intro other otherId after kept known depends
        rw [subscribed]
        obtain ⟨before, earlier, ⟨rfl, rfl, rfl⟩ | ⟨different, rfl⟩⟩ :=
          update_observer_cases kept
        · rw [held] at earlier
          cases earlier
          by_cases same : known = source
          · rw [if_pos same]
            exact ⟨_, rfl, List.mem_append_right _ (.head _)⟩
          · rw [if_neg same]
            refine linked.held _ _ element held known ?_
            rcases List.mem_append.mp depends with depends | depends
            · exact depends
            · exact absurd (List.mem_singleton.mp depends) same
        · obtain ⟨listing, found, among⟩ := linked.held other otherId after earlier known depends
          by_cases same : known = source
          · subst same
            rw [listed] at found
            cases found
            rw [if_pos rfl]
            exact ⟨_, rfl, List.mem_append_left _ among⟩
          · rw [if_neg same]
            exact ⟨listing, found, among⟩
      · intro other others now
        rw [subscribed] at now
        split at now
        case isTrue =>
          cases now
          refine List.Nodup.append (linked.subscribersOnce source subscribers listed)
            (List.nodup_singleton _) ?_
          simpa using unlisted
        case isFalse => exact linked.subscribersOnce other others now
      · intro other otherId after kept
        obtain ⟨before, earlier, ⟨rfl, rfl, rfl⟩ | ⟨_, rfl⟩⟩ := update_observer_cases kept
        · rw [held] at earlier
          cases earlier
          refine List.Nodup.append (linked.dependenciesOnce _ _ element held)
            (List.nodup_singleton _) ?_
          simpa using new
        · exact linked.dependenciesOnce other otherId after earlier

omit [DecidableEq O] in
/-- All subscribers are mounted, so a notification drops none. -/
theorem Linked.notify (linked : world.Linked) (source : S) :
    (world.notifyDependents source) = world := by
  have same : ∀ other, (world.notifyDependents source).subscribers other =
      world.subscribers other := by
    intro other
    simp only [notifyDependents, updateSubscribers]
    split
    case isFalse => rfl
    case isTrue same =>
      cases listed : world.subscribers other with
      | none => rfl
      | some subscribers =>
        rw [Option.map_some, List.filter_eq_self.mpr]
        exact linked.matched.mounted other subscribers listed
  show ({ world with subscribers := _ } : Subscriptions O S) = world
  rw [show (fun other => if other = source then _ else _) = world.subscribers from funext same]

/-- Unsubscribing from a list of sources. -/
theorem unsubscribe_all (owner : O) (id : ElementId) (sources : List S) :
    ∀ world : Subscriptions O S,
      let after := sources.foldl (fun world source => world.unsubscribe owner id source) world
      after.registry = world.registry ∧ after.nextId = world.nextId ∧
      ∀ other, after.subscribers other = if other ∈ sources then
          (world.subscribers other).map fun subscribers => subscribers.filter fun subscriber =>
            ¬ (subscriber.owner = owner ∧ subscriber.id = id)
        else world.subscribers other := by
  induction sources with
  | nil => exact fun world => ⟨rfl, rfl, fun other => (if_neg List.not_mem_nil).symm⟩
  | cons first rest ih =>
    intro world
    obtain ⟨registry, nextId, subscribers⟩ := ih (world.unsubscribe owner id first)
    refine ⟨registry, nextId, fun other => ?_⟩
    refine (subscribers other).trans ?_
    simp only [unsubscribe, updateSubscribers, List.mem_cons]
    by_cases here : other = first
    · by_cases later : other ∈ rest
      · simp [here, here ▸ later, Option.map_map, Function.comp_def, List.filter_filter]
      · simp [here, here ▸ later]
    · by_cases later : other ∈ rest
      · simp [here, later]
      · simp [here, later]

/-- No source lists an element any more that has cleared its dependencies. -/
theorem Linked.cleared_subscribers (linked : world.Linked) {element : Observer S}
    (held : world.registry owner id = some element) (other : S) :
    (world.clearDependencies owner id).subscribers other =
      (world.subscribers other).map fun subscribers => subscribers.filter fun subscriber =>
        ¬ (subscriber.owner = owner ∧ subscriber.id = id) := by
  have after := (unsubscribe_all owner id element.dependencies world).2.2 other
  simp only [clearDependencies, held]
  refine after.trans ?_
  split
  case isTrue => rfl
  case isFalse independent =>
    cases listed : world.subscribers other with
    | none => rfl
    | some subscribers =>
      rw [Option.map_some, List.filter_eq_self.mpr]
      intro subscriber among
      refine decide_eq_true ?_
      rintro ⟨rfl, rfl⟩
      obtain ⟨_, kept, _, depends⟩ := linked.listed other subscribers listed subscriber among
      rw [held] at kept
      cases kept
      exact independent depends

theorem cleared_registry {element : Observer S} (held : world.registry owner id = some element) :
    (world.clearDependencies owner id).registry = (world.updateObserver owner id
      fun element => { element with dependencies := [] }).registry := by
  have after := (unsubscribe_all owner id element.dependencies world).1
  simp only [clearDependencies, held, updateObserver] at after ⊢
  rw [after]

theorem cleared_next_id : (world.clearDependencies owner id).nextId = world.nextId := by
  unfold clearDependencies
  split
  · rfl
  · exact (unsubscribe_all owner id _ world).2.1

theorem Linked.clear (linked : world.Linked) (owner : O) (id : ElementId) :
    (world.clearDependencies owner id).Linked := by
  cases held : world.registry owner id with
  | none =>
    simp only [clearDependencies, held]
    exact linked
  | some element =>
    constructor
    · intro other otherId after kept
      rw [cleared_registry held] at kept
      rw [cleared_next_id]
      obtain ⟨before, earlier, _⟩ := update_observer_cases kept
      exact linked.bounded other otherId before earlier
    · intro other others now subscriber among
      rw [linked.cleared_subscribers held] at now
      obtain ⟨subscribers, listed, rfl⟩ := Option.map_eq_some_iff.mp now
      obtain ⟨among, different⟩ := List.mem_filter.mp among
      obtain ⟨found, kept, generation, depends⟩ :=
        linked.listed other subscribers listed subscriber among
      rw [cleared_registry held]
      exact ⟨found, (observer_kept (of_decide_eq_true different)).trans kept, generation, depends⟩
    · intro other otherId after kept known depends
      rw [cleared_registry held] at kept
      obtain ⟨before, earlier, ⟨rfl, rfl, rfl⟩ | ⟨different, rfl⟩⟩ := update_observer_cases kept
      · cases depends
      · obtain ⟨listing, found, among⟩ := linked.held other otherId after earlier known depends
        rw [linked.cleared_subscribers held, found]
        exact ⟨_, rfl, List.mem_filter.mpr ⟨among, decide_eq_true different⟩⟩
    · intro other others now
      rw [linked.cleared_subscribers held] at now
      obtain ⟨subscribers, listed, rfl⟩ := Option.map_eq_some_iff.mp now
      exact (linked.subscribersOnce other subscribers listed).filter _
    · intro other otherId after kept
      rw [cleared_registry held] at kept
      obtain ⟨before, earlier, ⟨rfl, rfl, rfl⟩ | ⟨_, rfl⟩⟩ := update_observer_cases kept
      · exact List.nodup_nil
      · exact linked.dependenciesOnce other otherId after earlier

omit [DecidableEq S] in
/-- An element that depends on nothing can go. -/
theorem Linked.erase (linked : world.Linked)
    (silent : ∀ element, world.registry owner id = some element → element.dependencies = []) :
    ({ world with
        registry := fun other otherId => if other = owner ∧ otherId = id then none
          else world.registry other otherId } : Subscriptions O S).Linked := by
  constructor
  · intro other otherId after kept
    simp only at kept
    split at kept
    · cases kept
    · exact linked.bounded other otherId after kept
  · intro other others now subscriber among
    obtain ⟨found, kept, generation, depends⟩ := linked.listed other others now subscriber among
    refine ⟨found, ?_, generation, depends⟩
    simp only
    rw [if_neg, kept]
    rintro ⟨rfl, rfl⟩
    rw [silent found kept] at depends
    cases depends
  · intro other otherId after kept known depends
    simp only at kept
    split at kept
    · cases kept
    · exact linked.held other otherId after kept known depends
  · exact linked.subscribersOnce
  · intro other otherId after kept
    simp only at kept
    split at kept
    · cases kept
    · exact linked.dependenciesOnce other otherId after kept

/-- The element after a source has told some of its subscribers that it goes. -/
def Observer.forgetting (source : S) (told : List (Subscription O)) (owner : O) (id : ElementId)
    (element : Observer S) : Observer S :=
  if ⟨owner, id, element.generation⟩ ∈ told then
    { element with dependencies := element.dependencies.filter (· ≠ source) }
  else element

theorem forget_all (source : S) (told : List (Subscription O)) : ∀ world : Subscriptions O S,
    let after := told.foldl (fun world subscriber => world.forgetDependency source subscriber) world
    after.subscribers = world.subscribers ∧ after.nextId = world.nextId ∧
    ∀ owner id, after.registry owner id =
      (world.registry owner id).map (Observer.forgetting source told owner id) := by
  induction told with
  | nil =>
    refine fun world => ⟨rfl, rfl, fun owner id => ?_⟩
    have same : Observer.forgetting source ([] : List (Subscription O)) owner id = fun e => e :=
      funext fun _ => if_neg List.not_mem_nil
    rw [same, Option.map_id']
    rfl
  | cons first rest ih =>
    intro world
    obtain ⟨subscribers, nextId, registry⟩ := ih (world.forgetDependency source first)
    have kept : (world.forgetDependency source first).subscribers = world.subscribers ∧
        (world.forgetDependency source first).nextId = world.nextId := by
      unfold forgetDependency
      split
      · exact ⟨rfl, rfl⟩
      · exact ⟨rfl, rfl⟩
    refine ⟨subscribers.trans kept.1, nextId.trans kept.2, fun owner id => ?_⟩
    refine (registry owner id).trans ?_
    cases held : world.registry owner id with
    | none =>
      have gone : (world.forgetDependency source first).registry owner id = none := by
        unfold forgetDependency
        split
        · exact held
        · simp only [updateObserver, held, Option.map_none, ite_self]
      rw [gone]
      rfl
    | some element =>
      by_cases mine : first.owner = owner ∧ first.id = id
      · obtain ⟨rfl, rfl⟩ := mine
        by_cases named : element.generation = first.generation
        · have told : (world.forgetDependency source first).registry first.owner first.id = some
              { element with dependencies := element.dependencies.filter (· ≠ source) } := by
            unfold forgetDependency
            rw [resolve_of held named]
            exact observer_updated held
          rw [told, Option.map_some, Option.map_some]
          obtain ⟨_, _, _⟩ := first
          simp only at named
          subst named
          simp only [Observer.forgetting, List.mem_cons, true_or, if_true]
          split
          · simp only [List.filter_filter, Bool.and_self]
          · rfl
        · have skipped : world.forgetDependency source first = world := by
            unfold forgetDependency
            rw [resolve, held, Option.filter_some, if_neg (by simpa using named)]
          rw [skipped, held, Option.map_some, Option.map_some]
          obtain ⟨_, _, _⟩ := first
          simp only [Observer.forgetting, List.mem_cons, Subscription.mk.injEq, true_and] at named ⊢
          simp only [named, false_or]
      · have skipped : (world.forgetDependency source first).registry owner id = some element := by
          unfold forgetDependency
          split
          · exact held
          · refine (observer_kept ?_).trans held
            rintro ⟨rfl, rfl⟩
            exact mine ⟨rfl, rfl⟩
        rw [skipped, Option.map_some, Option.map_some]
        have other : ∀ generation, (⟨owner, id, generation⟩ : Subscription O) ≠ first := by
          rintro generation rfl
          exact mine ⟨rfl, rfl⟩
        simp only [Observer.forgetting, List.mem_cons, other, false_or]

/-- No element depends any more on a source that has gone. -/
theorem Linked.destroyed_registry (linked : world.Linked) {subscribers : List (Subscription O)}
    (listed : world.subscribers source = some subscribers) (owner : O) (id : ElementId) :
    (world.destroySource source).registry owner id =
      (world.registry owner id).map fun element =>
        { element with dependencies := element.dependencies.filter (· ≠ source) } := by
  have after := (forget_all source subscribers world).2.2 owner id
  simp only [destroySource, listed]
  refine after.trans ?_
  cases held : world.registry owner id with
  | none => rfl
  | some element =>
    simp only [Option.map_some, Observer.forgetting]
    split
    case isTrue => rfl
    case isFalse untold =>
      rw [List.filter_eq_self.mpr]
      intro known depends
      refine decide_eq_true ?_
      rintro rfl
      obtain ⟨others, found, among⟩ := linked.held owner id element held known depends
      rw [listed] at found
      cases found
      exact untold among

theorem Linked.destroySource (linked : world.Linked) (source : S) :
    (world.destroySource source).Linked := by
  cases listed : world.subscribers source with
  | none =>
    simp only [Subscriptions.destroySource, listed]
    exact linked
  | some subscribers =>
    have registry := linked.destroyed_registry listed
    have remaining : ∀ other, (world.destroySource source).subscribers other =
        if other = source then none else world.subscribers other := by
      intro other
      simp only [Subscriptions.destroySource, listed]
      rw [(forget_all source subscribers world).1]
    have nextId : (world.destroySource source).nextId = world.nextId := by
      simp only [Subscriptions.destroySource, listed]
      exact (forget_all source subscribers world).2.1
    constructor
    · intro other otherId after kept
      rw [registry] at kept
      rw [nextId]
      obtain ⟨before, earlier, _⟩ := Option.map_eq_some_iff.mp kept
      exact linked.bounded other otherId before earlier
    · intro other others now subscriber among
      rw [remaining] at now
      split at now
      case isTrue => cases now
      case isFalse different =>
        obtain ⟨found, kept, generation, depends⟩ := linked.listed other others now subscriber among
        rw [registry, kept]
        exact ⟨_, rfl, generation, List.mem_filter.mpr ⟨depends, decide_eq_true different⟩⟩
    · intro other otherId after kept known depends
      rw [registry] at kept
      obtain ⟨before, earlier, rfl⟩ := Option.map_eq_some_iff.mp kept
      obtain ⟨depends, different⟩ := List.mem_filter.mp depends
      rw [remaining, if_neg (of_decide_eq_true different)]
      exact linked.held other otherId before earlier known depends
    · intro other others now
      rw [remaining] at now
      split at now
      · cases now
      · exact linked.subscribersOnce other others now
    · intro other otherId after kept
      rw [registry] at kept
      obtain ⟨before, earlier, rfl⟩ := Option.map_eq_some_iff.mp kept
      exact (linked.dependenciesOnce other otherId before earlier).filter _

theorem Linked.destroyAll (sources : List S) : ∀ world : Subscriptions O S, world.Linked →
    (sources.foldl Subscriptions.destroySource world).Linked := by
  induction sources with
  | nil => exact fun _ linked => linked
  | cons source rest ih => exact fun world linked => ih _ (linked.destroySource source)

theorem Linked.removeElement (linked : world.Linked) (owner : O) (id : ElementId) :
    (world.removeElement owner id).Linked := by
  unfold Subscriptions.removeElement
  split
  case h_1 => exact linked
  case h_2 element held =>
    refine Linked.destroyAll _ _ ((linked.clear owner id).erase fun after kept => ?_)
    rw [cleared_registry held] at kept
    obtain ⟨before, _, ⟨_, _, rfl⟩ | ⟨different, _⟩⟩ := update_observer_cases kept
    · rfl
    · exact absurd ⟨rfl, rfl⟩ different

omit [DecidableEq O] in
theorem Linked.createSource (linked : world.Linked)
    (created : world.createSource source = some next) : next.Linked := by
  unfold Subscriptions.createSource at created
  split at created
  case h_1 => cases created
  case h_2 absent =>
    cases created
    refine ⟨linked.bounded, fun other others now subscriber among => ?_,
      fun other otherId after kept known depends => ?_, fun other others now => ?_,
      linked.dependenciesOnce⟩
    · simp only at now
      split at now
      · cases now
        cases among
      · exact linked.listed other others now subscriber among
    · obtain ⟨listing, found, among⟩ := linked.held other otherId after kept known depends
      simp only
      rw [if_neg, found]
      · exact ⟨listing, rfl, among⟩
      · rintro rfl
        rw [absent] at found
        cases found
    · simp only at now
      split at now
      · cases now
        exact List.nodup_nil
      · exact linked.subscribersOnce other others now

omit [DecidableEq S] in
/-- A change of an element that leaves its side of the subscriptions alone. -/
theorem Linked.reshape (linked : world.Linked) {f : Observer S → Observer S}
    (generation : ∀ element, (f element).generation = element.generation)
    (dependencies : ∀ element, (f element).dependencies = element.dependencies) :
    (world.updateObserver owner id f).Linked := by
  have earlier : ∀ other otherId after,
      (world.updateObserver owner id f).registry other otherId = some after →
      ∃ before, world.registry other otherId = some before ∧
        after.generation = before.generation ∧ after.dependencies = before.dependencies := by
    intro other otherId after kept
    obtain ⟨before, held, ⟨_, _, rfl⟩ | ⟨_, rfl⟩⟩ := update_observer_cases kept
    · exact ⟨before, held, generation before, dependencies before⟩
    · exact ⟨after, held, rfl, rfl⟩
  constructor
  · intro other otherId after kept
    obtain ⟨before, held, _⟩ := earlier other otherId after kept
    exact linked.bounded other otherId before held
  · intro other others now subscriber among
    obtain ⟨found, held, named, depends⟩ := linked.listed other others now subscriber among
    by_cases same : subscriber.owner = owner ∧ subscriber.id = id
    · obtain ⟨rfl, rfl⟩ := same
      refine ⟨_, observer_updated held, (generation found).trans named, ?_⟩
      rw [dependencies]
      exact depends
    · exact ⟨found, (observer_kept same).trans held, named, depends⟩
  · intro other otherId after kept known depends
    obtain ⟨before, held, named, same⟩ := earlier other otherId after kept
    rw [same] at depends
    rw [named]
    exact linked.held other otherId before held known depends
  · exact linked.subscribersOnce
  · intro other otherId after kept
    obtain ⟨before, held, _, same⟩ := earlier other otherId after kept
    rw [same]
    exact linked.dependenciesOnce other otherId before held

theorem Linked.provide (linked : world.Linked)
    (provided : world.provide owner id source = some next) : next.Linked := by
  unfold Subscriptions.provide at provided
  split at provided
  · cases provided
  · refine Linked.createSource (linked.reshape ?_ ?_) provided
    · exact fun _ => rfl
    · exact fun _ => rfl

omit [DecidableEq S] in
theorem Linked.makeElement (linked : world.Linked) (owner : O) :
    (world.makeElement owner).Linked := by
  have fresh : ∀ other id element, world.registry other id = some element →
      ¬ (other = owner ∧ id = world.nextId owner) := by
    rintro other id element held ⟨rfl, rfl⟩
    exact Nat.lt_irrefl _ (linked.bounded other _ element held)
  constructor
  · intro other id after kept
    simp only [Subscriptions.makeElement] at kept ⊢
    split at kept
    case isTrue same =>
      rw [if_pos same.1, same.2]
      exact Nat.lt_succ_self _
    case isFalse =>
      have := linked.bounded other id after kept
      split
      case isTrue same =>
        subst same
        exact Nat.lt_succ_of_lt this
      case isFalse => exact this
  · intro other others now subscriber among
    obtain ⟨found, held, named, depends⟩ := linked.listed other others now subscriber among
    refine ⟨found, ?_, named, depends⟩
    simp only [Subscriptions.makeElement]
    rw [if_neg (fresh _ _ _ held), held]
  · intro other id after kept known depends
    simp only [Subscriptions.makeElement] at kept
    split at kept
    · cases kept
      cases depends
    · exact linked.held other id after kept known depends
  · exact linked.subscribersOnce
  · intro other id after kept
    simp only [Subscriptions.makeElement] at kept
    split at kept
    · cases kept
      exact List.nodup_nil
    · exact linked.dependenciesOnce other id after kept

theorem Linked.step (linked : world.Linked) {action : SubscriptionAction O S}
    (stepped : subscriptionStep world action = some next) : next.Linked := by
  cases action with
  | mount owner =>
    cases stepped
    exact linked.makeElement owner
  | beginBuild owner id =>
    cases stepped
    exact linked.clear owner id
  | observe owner id source => exact linked.observe stepped
  | write source =>
    cases stepped
    rw [linked.notify]
    exact linked
  | provide owner id source => exact linked.provide stepped
  | create source => exact linked.createSource stepped
  | destroy source =>
    cases stepped
    exact linked.destroySource source
  | unmount owner id =>
    cases stepped
    exact linked.removeElement owner id

theorem linked_throughout (reachable : Reachable (subscriptionMachine O S) world) :
    world.Linked := by
  refine Reaches.invariant _ ?_ ?_ reachable
  · rintro _ rfl
    exact linked_initially
  · exact fun _ _ _ linked _ stepped => linked.step stepped

end Subscriptions

end Dui
