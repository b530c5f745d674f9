import Dui.Subscriptions
import Dui.ReconcileClosure

/-! Subscriptions are a bijection in every run: whatever an owner does to its sources and
elements is a run of the machine of the subscriptions. -/
namespace Dui
open Transition BuildOwner Subscriptions

variable {α : Type}

/-- An element as its sources know it. -/
def Element.observer (id : ElementId) (element : Element α) : Observer Dependency where
  generation := element.generation
  dependencies := element.dependencies
  environment := element.provided.map (.environment id)

/-- The subscriptions of one owner. -/
def BuildOwner.subscriptions (owner : BuildOwner α) : Subscriptions Unit Dependency where
  registry _ id := (owner.registry id).map (·.observer id)
  nextId _ := owner.nextId
  subscribers dependency := (owner.sources dependency).map fun source =>
    source.subscribers.map fun subscriber => ⟨(), subscriber.id, subscriber.generation⟩

/-- What the owner has done to its sources and elements is a run, and signals yet to come
are not there. -/
structure BuildOwner.Recorded (owner : BuildOwner α) : Prop where
  reached : Reachable (subscriptionMachine Unit Dependency) owner.subscriptions
  signals : ∀ signal, (owner.sources (.signal signal)).isSome → signal < owner.nextSignal

namespace BuildOwner
variable {owner next : BuildOwner α} {id : ElementId} {dependency : Dependency}

/-- A step of the subscriptions that the owner has taken. -/
theorem Recorded.step (recorded : owner.Recorded) (action : SubscriptionAction Unit Dependency)
    (stepped : subscriptionStep owner.subscriptions action = some next.subscriptions)
    (signals : ∀ signal, (next.sources (.signal signal)).isSome → signal < next.nextSignal) :
    next.Recorded :=
  ⟨Reaches.step recorded.reached trivial stepped, signals⟩

theorem Alike.subscriptions (alike : owner.Alike next) :
    next.subscriptions = owner.subscriptions := by
  have registry : next.subscriptions.registry = owner.subscriptions.registry := by
    funext _ other
    have mounted := alike.mounted other
    simp only [BuildOwner.subscriptions]
    cases held : owner.registry other with
    | none =>
      rw [held, Option.isSome_none, Option.isSome_eq_false_iff, Option.isNone_iff_eq_none]
        at mounted
      rw [mounted]
    | some element =>
      rw [held, Option.isSome_some] at mounted
      obtain ⟨after, kept⟩ := Option.isSome_iff_exists.mp mounted
      have akin := alike.elements other element after held kept
      rw [kept, Option.map_some, Option.map_some]
      simp only [Element.observer, akin.generation, akin.dependencies, akin.provided]
  show (⟨_, _, _⟩ : Subscriptions Unit Dependency) = ⟨_, _, _⟩
  congr 1
  · simp only [alike.nextId]
  · simp only [alike.sources]

theorem Recorded.alike (recorded : owner.Recorded) (alike : owner.Alike next) : next.Recorded := by
  refine ⟨?_, fun signal present => ?_⟩
  · rw [alike.subscriptions]
    exact recorded.reached
  · rw [alike.sources] at present
    rw [alike.nextSignal]
    exact recorded.signals signal present

theorem recorded_initially : ({} : BuildOwner α).Recorded := by
  refine ⟨Reaches.start rfl, fun signal present => ?_⟩
  cases present

/-- An element changed in place is changed for its sources. -/
theorem update_element_subscriptions {f : Element α → Element α}
    {g : Observer Dependency → Observer Dependency}
    (same : ∀ element : Element α, (f element).observer id = g (element.observer id)) :
    (owner.updateElement id f).subscriptions = owner.subscriptions.updateObserver () id g := by
  have registry : (fun (_ : Unit) other => ((owner.updateElement id f).registry other).map
      (Element.observer other)) = (owner.subscriptions.updateObserver () id g).registry := by
    funext _ other
    simp only [updateObserver, BuildOwner.subscriptions, registry_update, true_and]
    split
    case isFalse => rfl
    case isTrue here =>
      subst here
      cases owner.registry other with
      | none => rfl
      | some element => exact congrArg some (same element)
  simp only [BuildOwner.subscriptions, registry]
  rfl

/-- A source changed in place is changed on its side of the subscriptions. -/
theorem update_source_subscriptions {f : DependencySource α → DependencySource α}
    {g : List (Subscription Unit) → List (Subscription Unit)}
    (same : ∀ source, owner.sources dependency = some source →
      ((f source).subscribers.map fun subscriber =>
        (⟨(), subscriber.id, subscriber.generation⟩ : Subscription Unit)) =
      g (source.subscribers.map fun subscriber => ⟨(), subscriber.id, subscriber.generation⟩)) :
    (owner.updateSource dependency f).subscriptions =
      owner.subscriptions.updateSubscribers dependency g := by
  have subscribers : (fun other => ((owner.updateSource dependency f).sources other).map
      fun source => source.subscribers.map fun subscriber =>
        (⟨(), subscriber.id, subscriber.generation⟩ : Subscription Unit)) =
      (owner.subscriptions.updateSubscribers dependency g).subscribers := by
    funext other
    simp only [updateSubscribers, BuildOwner.subscriptions, sources_update]
    split
    case isFalse => rfl
    case isTrue here =>
      subst here
      cases present : owner.sources other with
      | none => rfl
      | some source => exact congrArg some (same source present)
  simp only [BuildOwner.subscriptions, subscribers]
  rfl

theorem subscribe_subscriptions (generation : Nat) :
    (owner.subscribe dependency id generation).subscriptions =
      owner.subscriptions.subscribe dependency () id generation := by
  refine update_source_subscriptions fun source _ => ?_
  rw [List.any_map]
  have same : (source.subscribers.any fun subscriber => decide (subscriber.id = id)) =
      source.subscribers.any ((fun subscriber : Subscription Unit =>
        decide (subscriber.owner = () ∧ subscriber.id = id)) ∘ fun subscriber =>
          ⟨(), subscriber.id, subscriber.generation⟩) := by
    congr 1
    funext subscriber
    simp
  rw [← same]
  split
  · rfl
  · rw [List.map_append]
    rfl

theorem unsubscribe_subscriptions : (owner.unsubscribe id dependency).subscriptions =
    owner.subscriptions.unsubscribe () id dependency := by
  refine update_source_subscriptions fun source _ => ?_
  rw [List.filter_map]
  refine congrArg _ (List.filter_congr fun subscriber _ => ?_)
  simp

theorem resolve_subscriptions (subscriber : Subscriber) :
    (owner.subscriptions.resolve ⟨(), subscriber.id, subscriber.generation⟩) =
      (owner.resolve subscriber.id subscriber.generation).map (·.observer subscriber.id) := by
  simp only [Subscriptions.resolve, BuildOwner.resolve, BuildOwner.subscriptions]
  cases owner.registry subscriber.id with
  | none => rfl
  | some element =>
    rw [Option.map_some, Option.filter_some, Option.filter_some, apply_ite (Option.map _)]
    rfl

theorem Recorded.observe (recorded : owner.Recorded) (id : ElementId)
    (present : (owner.sources dependency).isSome) : (owner.observe id dependency).Recorded := by
  unfold BuildOwner.observe
  split
  case h_1 => exact recorded
  case h_2 element held =>
    split
    case isTrue => exact recorded
    case isFalse new =>
      obtain ⟨source, present⟩ := Option.isSome_iff_exists.mp present
      refine recorded.step (.observe () id dependency) ?_ fun signal there => ?_
      · have mounted : owner.subscriptions.registry () id = some (element.observer id) := by
          simp only [BuildOwner.subscriptions, held, Option.map_some]
        have listed : owner.subscriptions.subscribers dependency =
            some (source.subscribers.map fun subscriber =>
              ⟨(), subscriber.id, subscriber.generation⟩) := by
          simp only [BuildOwner.subscriptions, present, Option.map_some]
        have absent : dependency ∉ (element.observer id).dependencies := new
        simp only [subscriptionStep, Subscriptions.observe, mounted, listed, if_neg absent]
        rw [subscribe_subscriptions, update_element_subscriptions]
        · rfl
        · exact fun _ => rfl
      · rw [BuildOwner.subscribe, sources_update_isSome] at there
        exact recorded.signals signal there

theorem Recorded.notify (recorded : owner.Recorded) (dependency : Dependency) :
    (owner.notifyDependents dependency).Recorded := by
  unfold BuildOwner.notifyDependents
  split
  case h_1 => exact recorded
  case h_2 source present =>
    have marked : ∀ (subscribers : List Subscriber) (owner : BuildOwner α), owner.Alike
        (subscribers.foldl (fun owner subscriber =>
          owner.markDirty subscriber.id subscriber.generation) owner) := by
      intro subscribers
      induction subscribers with
      | nil => exact Alike.refl
      | cons first rest ih => exact fun owner => (mark_dirty_alike owner _ _).trans (ih _)
    refine Recorded.alike (recorded.step (.write dependency) ?_ fun signal there => ?_) (marked _ _)
    · simp only [subscriptionStep, Subscriptions.notifyDependents]
      rw [← update_source_subscriptions]
      intro other there
      rw [present] at there
      cases there
      rw [List.filter_map]
      refine congrArg _ (List.filter_congr fun subscriber _ => ?_)
      simp only [Function.comp_apply, resolve_subscriptions, Option.isSome_map]
    · rw [sources_update_isSome] at there
      exact recorded.signals signal there

theorem Recorded.write [DecidableEq α] (recorded : owner.Recorded) (dependency : Dependency)
    (value : α) : (owner.write dependency value).Recorded := by
  unfold BuildOwner.write
  split
  case h_1 => exact recorded
  case h_2 source present =>
    split
    case isTrue => exact recorded
    case isFalse =>
      refine Recorded.notify ⟨?_, fun signal there => ?_⟩ dependency
      · rw [update_source_subscriptions (g := id)]
        · have same : owner.subscriptions.updateSubscribers dependency id =
              owner.subscriptions := by
            simp only [updateSubscribers, Option.map_id, id_eq, ite_self]
          rw [same]
          exact recorded.reached
        · exact fun _ _ => rfl
      · rw [sources_update_isSome] at there
        exact recorded.signals signal there

theorem unsubscribe_all_subscriptions (id : ElementId) (dependencies : List Dependency) :
    ∀ owner : BuildOwner α,
      (dependencies.foldl (fun owner dependency => owner.unsubscribe id dependency)
        owner).subscriptions =
      dependencies.foldl (fun world source => world.unsubscribe () id source)
        owner.subscriptions := by
  induction dependencies with
  | nil => exact fun _ => rfl
  | cons first rest ih =>
    intro owner
    rw [List.foldl_cons, List.foldl_cons, ih, unsubscribe_subscriptions]

theorem clear_subscriptions (id : ElementId) :
    (owner.clearDependencies id).subscriptions = owner.subscriptions.clearDependencies () id := by
  unfold BuildOwner.clearDependencies Subscriptions.clearDependencies
  cases held : owner.registry id with
  | none => simp only [BuildOwner.subscriptions, held, Option.map_none]
  | some element =>
    have mounted : owner.subscriptions.registry () id = some (element.observer id) := by
      simp only [BuildOwner.subscriptions, held, Option.map_some]
    simp only [mounted]
    rw [update_element_subscriptions, unsubscribe_all_subscriptions]
    · rfl
    · exact fun _ => rfl

theorem Recorded.clear (recorded : owner.Recorded) (id : ElementId) :
    (owner.clearDependencies id).Recorded := by
  refine recorded.step (.beginBuild () id) (congrArg some (clear_subscriptions id).symm) ?_
  unfold BuildOwner.clearDependencies
  split
  case h_1 => exact recorded.signals
  case h_2 element _ =>
    have unlinked := BuildOwner.unsubscribe_all id element.dependencies owner
    intro signal there
    have before : (owner.sources (.signal signal)).isSome := (unlinked.present _).symm.trans there
    refine Nat.lt_of_lt_of_eq (recorded.signals signal before) ?_
    exact (congrArg BuildOwner.nextSignal unlinked.frame).symm

/-- A source that is new is new on its side of the subscriptions. -/
theorem add_source_subscriptions {comparable : Bool} {value : α}
    (absent : owner.sources dependency = none) :
    owner.subscriptions.createSource dependency =
      some (owner.addSource dependency comparable value).subscriptions := by
  have unlisted : owner.subscriptions.subscribers dependency = none := by
    simp only [BuildOwner.subscriptions, absent, Option.map_none]
  simp only [Subscriptions.createSource, unlisted]
  refine congrArg some ?_
  simp only [BuildOwner.subscriptions, BuildOwner.addSource]
  congr 1
  funext other
  split
  · rfl
  · rfl

theorem Recorded.createSignal (recorded : owner.Recorded) (comparable : Bool) (value : α) :
    (owner.createSignal comparable value).Recorded := by
  refine recorded.step (.create (.signal owner.nextSignal)) (add_source_subscriptions ?_)
    fun signal there => ?_
  · cases present : owner.sources (.signal owner.nextSignal) with
    | none => rfl
    | some source =>
      have early := recorded.signals owner.nextSignal (by rw [present]; rfl)
      exact absurd early (Nat.lt_irrefl _)
  · simp only [BuildOwner.createSignal, BuildOwner.addSource] at there ⊢
    split at there
    case isTrue same =>
      cases same
      exact Nat.lt_succ_self _
    case isFalse => exact Nat.lt_succ_of_lt (recorded.signals signal there)

theorem forget_subscriptions (dependency : Dependency) (subscriber : Subscriber) :
    (owner.forgetDependency dependency subscriber).subscriptions =
      owner.subscriptions.forgetDependency dependency
        ⟨(), subscriber.id, subscriber.generation⟩ := by
  simp only [BuildOwner.forgetDependency, Subscriptions.forgetDependency, resolve_subscriptions]
  cases owner.resolve subscriber.id subscriber.generation with
  | none => rfl
  | some element =>
    simp only [Option.map_some]
    exact update_element_subscriptions fun _ => rfl

theorem drop_source_subscriptions (owner : BuildOwner α) (dependency : Dependency) :
    (owner.dropSource dependency).subscriptions =
      owner.subscriptions.destroySource dependency := by
  have told : ∀ (subscribers : List Subscriber) (owner : BuildOwner α),
      (subscribers.foldl (fun owner subscriber => owner.forgetDependency dependency subscriber)
        owner).subscriptions =
      (subscribers.map fun subscriber => ⟨(), subscriber.id, subscriber.generation⟩).foldl
        (fun world subscriber => world.forgetDependency dependency subscriber)
        owner.subscriptions := by
    intro subscribers
    induction subscribers with
    | nil => exact fun _ => rfl
    | cons first rest ih =>
      intro owner
      rw [List.foldl_cons, ih, forget_subscriptions]
      rfl
  unfold BuildOwner.dropSource Subscriptions.destroySource BuildOwner.forgetSource
  cases present : owner.sources dependency with
  | none =>
    simp only [BuildOwner.subscriptions, present, Option.map_none]
    congr 1
    funext other
    split
    case isTrue same => rw [same, present]
    case isFalse => rfl
  | some source =>
    have listed : owner.subscriptions.subscribers dependency = some
        (source.subscribers.map fun subscriber => ⟨(), subscriber.id, subscriber.generation⟩) := by
      simp only [BuildOwner.subscriptions, present, Option.map_some]
    simp only [listed]
    rw [← told]
    simp only [BuildOwner.subscriptions]
    congr 1
    funext other
    split
    · rfl
    · rfl

theorem drop_source_signals {signal : SignalId} (dependency : Dependency)
    (there : ((owner.dropSource dependency).sources (.signal signal)).isSome) :
    (owner.sources (.signal signal)).isSome ∧
      (owner.dropSource dependency).nextSignal = owner.nextSignal := by
  have forgotten := @forgets_source α owner dependency
  have sources : (owner.forgetSource dependency).sources = owner.sources :=
    (congrArg BuildOwner.sources forgotten.frame :)
  refine ⟨?_, (congrArg BuildOwner.nextSignal forgotten.frame :)⟩
  simp only [BuildOwner.dropSource, sources] at there
  split at there
  · cases there
  · exact there

theorem Recorded.dropSource (recorded : owner.Recorded) (dependency : Dependency) :
    (owner.dropSource dependency).Recorded := by
  refine recorded.step (.destroy dependency)
    (congrArg some (drop_source_subscriptions owner dependency).symm) fun signal there => ?_
  obtain ⟨before, same⟩ := drop_source_signals dependency there
  rw [same]
  exact recorded.signals signal before

theorem Recorded.makeElement (recorded : owner.Recorded) (viewType : ViewKind × TypeToken)
    (key : Key) (parent : Option ElementId) :
    (owner.makeElement viewType key parent).Recorded := by
  refine recorded.step (.mount ()) (congrArg some ?_) recorded.signals
  simp only [Subscriptions.makeElement, BuildOwner.makeElement, BuildOwner.subscriptions, true_and,
    if_true]
  congr 1
  funext _ other
  split
  · rfl
  · rfl

/-- Dropping the slots of an element, one after the other. -/
theorem drop_slots_subscriptions (id : ElementId) (types : List TypeToken) :
    ∀ owner : BuildOwner α,
      (types.foldl (fun owner type => owner.dropSource (.environment id type))
        owner).subscriptions =
      (types.map (Dependency.environment id)).foldl Subscriptions.destroySource
        owner.subscriptions := by
  induction types with
  | nil => exact fun _ => rfl
  | cons first rest ih =>
    intro owner
    rw [List.foldl_cons, ih, drop_source_subscriptions]
    rfl

theorem drop_slots_signals {signal : SignalId} (id : ElementId) (types : List TypeToken) :
    ∀ owner : BuildOwner α,
      let last := types.foldl (fun owner type => owner.dropSource (.environment id type)) owner
      (last.sources (.signal signal)).isSome →
        (owner.sources (.signal signal)).isSome ∧ last.nextSignal = owner.nextSignal := by
  induction types with
  | nil => exact fun _ there => ⟨there, rfl⟩
  | cons first rest ih =>
    intro owner last there
    obtain ⟨before, same⟩ := ih _ there
    obtain ⟨earlier, equal⟩ := drop_source_signals _ before
    exact ⟨earlier, same.trans equal⟩

theorem cleared_element {element : Element α} (held : owner.registry id = some element) :
    (owner.clearDependencies id).registry id =
      some { element with dependencies := [], reads := [] } := by
  have unlinked := BuildOwner.unsubscribe_all id element.dependencies owner
  simp only [BuildOwner.clearDependencies, held]
  rw [registry_update, if_pos rfl, unlinked.frame, held, Option.map_some]

theorem remove_subscriptions (owner : BuildOwner α) (id : ElementId) :
    (owner.removeElement id).subscriptions = owner.subscriptions.removeElement () id := by
  unfold BuildOwner.removeElement Subscriptions.removeElement
  cases held : owner.registry id with
  | none =>
    have cleared : owner.clearDependencies id = owner := by
      simp only [BuildOwner.clearDependencies, held]
    simp only [cleared, held, List.foldl_nil, BuildOwner.subscriptions, Option.map_none]
    congr 1
    funext _ other
    split
    case isTrue same => rw [same, held, Option.map_none]
    case isFalse => rfl
  | some element =>
    have mounted : owner.subscriptions.registry () id = some (element.observer id) := by
      simp only [BuildOwner.subscriptions, held, Option.map_some]
    simp only [mounted, cleared_element held]
    refine (drop_slots_subscriptions id element.provided _).trans ?_
    refine congrArg (List.foldl Subscriptions.destroySource · _) ?_
    rw [← clear_subscriptions]
    simp only [BuildOwner.subscriptions]
    congr 1
    funext _ other
    simp only [true_and]
    split
    · rfl
    · rfl

theorem Recorded.removeElement (recorded : owner.Recorded) (id : ElementId) :
    (owner.removeElement id).Recorded := by
  refine recorded.step (.unmount () id) (congrArg some (remove_subscriptions owner id).symm)
    fun signal there => ?_
  obtain ⟨before, same⟩ := drop_slots_signals id _ _ there
  refine Nat.lt_of_lt_of_eq ((recorded.clear id).signals signal before) ?_
  exact same.symm

theorem Recorded.setEnvironment [DecidableEq α] (recorded : owner.Recorded) (program : Program α)
    (id : ElementId) (type : TypeToken) (value : α) :
    (owner.setEnvironment program id type value).Recorded := by
  unfold BuildOwner.setEnvironment
  split
  case h_1 => exact recorded
  case h_2 => exact recorded.write _ value
  case h_3 element held absent =>
    refine recorded.step (.provide () id (.environment id type)) ?_ fun signal there => ?_
    · have mounted : owner.subscriptions.registry () id = some (element.observer id) := by
        simp only [BuildOwner.subscriptions, held, Option.map_some]
      simp only [subscriptionStep, Subscriptions.provide, mounted]
      rw [← add_source_subscriptions, update_element_subscriptions]
      · intro element
        simp only [Element.observer, List.map_append, List.map_cons, List.map_nil]
      · exact absent
    · simp only [BuildOwner.addSource, reduceCtorEq, if_false] at there
      exact recorded.signals signal there

/-- Every primitive of the owner is a run of the subscriptions. -/
theorem recorded_lasting [DecidableEq α] (program : Program α) :
    Lasting program (BuildOwner.Recorded : BuildOwner α → Prop) where
  alike _ _ recorded alike := recorded.alike alike
  write _ dependency value recorded := recorded.write dependency value
  observe _ id _ recorded present := recorded.observe id present
  clear _ id recorded := recorded.clear id
  createSignal _ comparable value recorded := recorded.createSignal comparable value
  destroySignal _ _ recorded := recorded.dropSource _
  makeElement _ viewType key parent recorded := recorded.makeElement viewType key parent
  removeElement _ id recorded := recorded.removeElement id
  setEnvironment _ id type value recorded := recorded.setEnvironment program id type value

end BuildOwner

/-- Between any two changes to sources and elements, however many owners share them and
whatever the order, a source lists exactly the mounted elements that depend on it, each
once on either side; and so it is after every run of calls on an owner. -/
theorem subscriptions_matched :
    (∀ {O S : Type} [DecidableEq O] [DecidableEq S] (world : Subscriptions O S),
      Reachable (subscriptionMachine O S) world → world.Matched) ∧
    ∀ {α : Type} [DecidableEq α] (script : List (Program α × Nat × Call α))
      (owner : BuildOwner α), performEach script {} = some owner →
      Reachable (subscriptionMachine Unit Dependency) owner.subscriptions ∧
        owner.subscriptions.Matched := by
  refine ⟨fun world reachable => (linked_throughout reachable).matched,
    fun script owner ran => ?_⟩
  have recorded := Durable.perform_each (fun program => (recorded_lasting program).durable) script
    {} owner recorded_initially ran
  exact ⟨recorded.reached, (linked_throughout recorded.reached).matched⟩

/-- A component shows a signal. -/
def watchingProgram : Program Nat where
  build _ _ := .get 0 fun value => .done (.leaf 0 none value)
  item _ value := .done (.leaf 0 none value)

def watchingScript : List (Program Nat × Nat × Call Nat) :=
  [.createSignal true 3, .render (.component 0 7), .setSignal 0 5, .flush].map (watchingProgram, 9, ·)

/-- Two owners observe a signal, one of them after a build that observed an environment
slot as well, until the other one's element goes. -/
def sharingActions : List (SubscriptionAction Bool Nat) :=
  [.create 0, .mount false, .mount true, .mount true, .provide true 1 7, .observe true 2 7,
    .observe false 1 0, .observe true 2 0, .write 0, .beginBuild true 2, .observe true 2 0,
    .unmount false 1, .unmount true 1]

theorem subscriptions_matched_shared : ∃ (world : Subscriptions Bool Nat) (owner : BuildOwner Nat),
    (subscriptionMachine Bool Nat).run {} sharingActions = some world ∧
      world.subscribers 0 = some [⟨true, 2, 2⟩] ∧ world.subscribers 7 = none ∧ world.Matched ∧
      performEach watchingScript {} = some owner ∧
      owner.subscriptions.subscribers (.signal 0) = some [⟨(), 1, 1⟩] ∧
      owner.subscriptions.Matched := by
  have shared : ((subscriptionMachine Bool Nat).run {} sharingActions).map (fun world =>
      (world.subscribers 0, world.subscribers 7)) = some (some [⟨true, 2, 2⟩], none) := by
    decide +kernel
  have watched : (performEach watchingScript {}).map (fun owner => owner.subscriptions.subscribers (.signal 0)) =
        some (some [⟨(), 1, 1⟩]) := by
    decide +kernel
  obtain ⟨world, ran, shown⟩ := Option.map_eq_some_iff.mp shared
  obtain ⟨owner, performed, listed⟩ := Option.map_eq_some_iff.mp watched
  obtain ⟨first, second⟩ := Prod.mk.inj shown
  exact ⟨world, owner, ran, first, second,
    subscriptions_matched.1 world (Reachable.run (Reaches.start rfl) ran), performed, listed,
    (subscriptions_matched.2 watchingScript owner performed).2⟩

end Dui
