import Dui.ElementPlaces

/-! The registry of an owner after any calls: it holds the elements that are reached from
the root, each by one path, whether the calls returned or threw. -/
namespace Dui
open Effect BuildOwner Hierarchy

variable {α β : Type} {gone : ElementId → Prop} {root : Option ElementId}
  {hollow outer : List (Opening Listing)} {place : Option (ElementId × Node Listing)}
  {held : List ElementId} {id : ElementId} {node : Node Listing}

/-! ### Realizing the items of lazy lists -/

/-- The children that are held while items are realized. -/
def LazyChildren.all (children : LazyChildren) : List ElementId :=
  children.next ++ children.previous ++ children.keptAlive

theorem take_splits {children after : LazyChildren} {reusable : ElementId → Bool}
    {found : Option ElementId} (taken : children.take reusable = (found, after)) :
    children.all.Perm (found.toList ++ after.all) := by
  unfold LazyChildren.take at taken
  refine List.perm_iff_count.mpr fun child => ?_
  cases first : children.previous.find? reusable with
  | some chosen =>
    rw [first] at taken
    cases taken
    have split := (List.perm_cons_erase (List.mem_of_find?_eq_some first)).count_eq child
    simp only [LazyChildren.all, List.count_append, List.count_cons, Option.toList_some,
      List.count_nil] at split ⊢
    omega
  | none =>
    rw [first] at taken
    cases second : children.keptAlive.find? reusable with
    | some chosen =>
      rw [second] at taken
      cases taken
      have split := (List.perm_cons_erase (List.mem_of_find?_eq_some second)).count_eq child
      simp only [LazyChildren.all, List.count_append, List.count_cons, Option.toList_some,
        List.count_nil] at split ⊢
      omega
    | none =>
      rw [second] at taken
      cases taken
      rfl

/-- The items that layout asks for, one after the other: after a throw no child is held. -/
theorem realize_items_places {reconcile : Reconciler α} (placing : Placing reconcile) (fuel : Nat)
    (items : List (Key × View α)) : ∀ children : LazyChildren,
    Triple (Housed gone root (⟨some (id, listing node [] []), children.all⟩ :: hollow))
      (realizeItems reconcile fuel id children items) fun outcome owner =>
        (∀ failure, outcome = .error failure →
          Housed gone root (⟨some (id, listing node [] []), []⟩ :: hollow) owner) ∧
          ∀ made, outcome = .ok made →
            Housed gone root (⟨some (id, listing node [] []), made.all⟩ :: hollow) owner := by
  induction items with
  | nil =>
    intro children
    refine Triple.returning fun owner housed => ⟨nofun, fun made same => ?_⟩
    cases same
    exact housed
  | cons item items ih =>
    intro children
    obtain ⟨key, view⟩ := item
    refine Triple.consulting fun (found, after) => ?_
    refine Triple.knowing (fun owner before => take_splits before.2) fun taken => ?_
    refine Returns.bind ((placing.child view key taken).weaken (fun _ before => before.1)
      fun _ _ housed => housed) fun (child, result) => ?_
    cases result with
    | error failure =>
      have previous : after.all.Perm
          (after.previous ++ (after.keptAlive ++ (after.next ++ []))) := by
        refine List.perm_iff_count.mpr fun other => ?_
        simp only [LazyChildren.all, List.count_append, List.count_nil]
        omega
      refine Returns.bind (unmount_one fuel (List.Perm.refl _)) fun _ =>
        Returns.bind (unmount_each fuel _ previous) fun _ =>
        Returns.bind (unmount_each fuel _ (List.Perm.refl _)) fun _ =>
        Returns.bind (unmount_each fuel _ (List.Perm.refl _)) fun _ =>
        Returns.bind (set_children_open fun _ _ => Nat.zero_le 1) fun _ =>
        Returns.bind set_kept_alive_open fun _ => ?_
      exact Triple.throwing fun owner housed => ⟨fun _ _ => housed, nofun⟩
    | ok =>
      refine Triple.weaken (ih { after with next := after.next ++ [child] })
        (fun owner housed => Housed.perm housed ?_) fun _ _ after => after
      refine List.perm_iff_count.mpr fun other => ?_
      simp only [LazyChildren.all, List.count_append, List.count_cons, List.count_nil]
      omega

/-- What is left over is retained or unmounted. -/
theorem retain_or_unmount_places (fuel : Nat) (keys : List Key) (rest : List ElementId)
    (children : List ElementId) : ∀ retained,
    Returns (Housed gone root (⟨place, children ++ (retained ++ rest)⟩ :: outer))
      (retainOrUnmount fuel keys retained children : Building α (List ElementId))
      fun kept => Housed gone root (⟨place, kept ++ rest⟩ :: outer) := by
  induction children with
  | nil => exact fun retained => Returns.pure fun _ housed => housed
  | cons child children ih =>
    intro retained
    refine Returns.bind read_housed fun key => ?_
    split
    · refine (ih (retained ++ [child])).weaken (fun owner housed => Housed.perm housed ?_)
        fun _ _ housed => housed
      refine List.perm_iff_count.mpr fun other => ?_
      simp only [List.count_append, List.count_cons, List.count_nil]
      omega
    · exact Returns.bind (unmount_one fuel (List.Perm.refl _)) fun _ => ih retained

section Lazy
variable [DecidableEq α] (program : Program α)

theorem realize_range_shuts (fuel : Nat) (type : TypeToken) (model : LazyModel α)
    (range : ChildRange) (lazy : node.info.policy.isSome = true) :
    Triple (Housed gone root (⟨some (id, node), node.info.all⟩ :: hollow))
      (realizeRange program fuel id type model node.info.keptAlive range)
      fun _ => Shut gone root hollow id := by
  have still : ∀ owner : BuildOwner α,
      Housed gone root (⟨some (id, node), node.info.all⟩ :: hollow) owner →
        Shut gone root hollow id owner := fun owner housed => ⟨_, _, housed, List.Perm.refl _⟩
  refine Triple.knowing (fun owner housed => housed.fit.lazy lazy) fun kind => ?_
  have many : node.info.kind.narrow ≠ true := by simp [kind, ViewKind.narrow]
  unfold realizeRange
  split
  · exact Triple.throwing still
  · refine Triple.bind (build_lazy_items_neutral program type _ []).housed (fun views => ?_)
      fun _ owner housed => still owner housed
    refine Returns.bind children_of_open fun previous => Triple.given fun same => ?_
    subst same
    refine Returns.bind (set_children_open fun _ _ => Nat.zero_le 1) fun _ =>
      Returns.bind set_kept_alive_open fun _ => ?_
    refine Triple.bind (realize_items_places (reconcile_child_placing program fuel) fuel views
      ⟨[], node.info.children, node.info.keptAlive⟩) (fun made => ?_)
      fun failure owner after => ⟨_, [], after.1 failure rfl, List.Perm.refl _⟩
    have kept : made.all.Perm (made.keptAlive ++ ([] ++ (made.next ++ made.previous))) := by
      refine List.perm_iff_count.mpr fun other => ?_
      simp only [LazyChildren.all, List.count_append, List.count_nil]
      omega
    refine Returns.bind ((retain_or_unmount_places fuel model.keepAliveKeys _ _ _).weaken
      (fun owner after => (after.2 made rfl).perm kept) fun _ _ housed => housed)
      fun retained => ?_
    have previous : (retained ++ (made.next ++ made.previous)).Perm
        (made.previous ++ (retained ++ made.next)) := by
      refine List.perm_iff_count.mpr fun other => ?_
      simp only [List.count_append]
      omega
    refine Returns.bind ((retain_or_unmount_places fuel model.keepAliveKeys _ _ _).weaken
      (fun owner housed => Housed.perm housed previous) fun _ _ housed => housed)
      fun retained => ?_
    refine Returns.bind (set_children_open fun narrow => absurd narrow many) fun _ =>
      Returns.bind set_kept_alive_open fun _ => enforce_limit_shuts fuel ?_
    exact List.perm_append_comm

/-- The lists of the root is all that is open. -/
def Settled (gone : ElementId → Prop) (root : Option ElementId) : BuildOwner α → Prop :=
  Housed gone root [⟨none, root.toList⟩]

omit [DecidableEq α] in
/-- Where only the list of the root is open, any element may be opened. -/
theorem Settled.opened {run : Building α β} {suits : Node Listing → Prop}
    (shuts : ∀ node, suits node → Triple
      (Housed gone root [⟨some (id, node), node.info.all⟩, ⟨none, root.toList⟩]) run
      fun _ => Shut gone root [⟨none, root.toList⟩] id) :
    Triple (fun owner => Settled gone root owner ∧
      ∃ element, owner.registry id = some element ∧ suits element.node) run
      fun _ => Settled gone root := by
  refine (opened_shut shuts).weaken (fun owner before => ?_) fun _ _ housed => housed
  obtain ⟨housed, element, mounted, suited⟩ := before
  refine ⟨housed, element.node, by simp [shape, mounted], suited, fun opening listed => ?_⟩
  obtain rfl := List.mem_singleton.mp listed
  exact Nat.zero_le _

theorem realize_lazy_children_settled (requests : ElementId → Option ChildRange) (fuel : Nat) :
    ∀ id, Keeps (Settled gone root) (realizeLazyChildren program requests fuel id) := by
  induction fuel with
  | zero => exact fun _ => Keeps.diverge
  | succ fuel ih =>
    intro id
    have below : ∀ realized, Keeps (Settled gone root) (do
        let children ← childrenOf id
        let below ← Run.anyOf (realizeLazyChildren program requests fuel) children
        pure (realized || below)) :=
      fun realized => Keeps.bind Keeps.read fun children =>
        Keeps.bind (Keeps.anyOf ih _) fun _ => Keeps.pure
    rw [realizeLazyChildren]
    refine Triple.consulting fun found => ?_
    cases found with
    | none => exact Keeps.pure.weaken (fun _ before => before.1) fun _ _ settled => settled
    | some element =>
      dsimp only
      split
      · rename_i range model requested modelled
        have realized := @Settled.opened α _ gone root id
          (realizeRange program fuel id element.viewType.2 model element.lazyKeptAliveChildren
            range) (· = element.node) fun node same => by
            subst same
            exact realize_range_shuts program fuel _ model range (by simp [Element.node, modelled])
        have served := realized.weaken (fun owner (before : Settled gone root owner ∧
          owner.registry id = some element) => ⟨before.1, element, before.2, rfl⟩)
          fun _ _ settled => settled
        exact Triple.bind served (fun _ => below true) fun _ _ settled => settled
      · exact (below false).weaken (fun _ before => before.1) fun _ _ settled => settled

/-! ### Calls -/

/-- The elements are in their places, whatever the root is. -/
def Orderly (gone : ElementId → Prop) (owner : BuildOwner α) : Prop :=
  ∃ root, Settled gone root owner

omit [DecidableEq α] in
theorem Orderly.of_settled {run : Building α β}
    (settled : ∀ root, Keeps (Settled gone root) run) : Keeps (Orderly gone) run := by
  rintro owner outcome next ⟨root, before⟩ ran
  exact ⟨root, settled root owner outcome next before ran⟩

omit [DecidableEq α] in
theorem Neutral.orderly {run : Building α β} (neutral : Neutral run) : Keeps (Orderly gone) run :=
  .of_settled fun _ => neutral.housed

omit [DecidableEq α] in
theorem exclusively_orderly {refusal : Failure} {run : Building α β}
    (kept : Keeps (Orderly gone) run) : Keeps (Orderly gone) (exclusively refusal run) := by
  refine Keeps.bind Keeps.read fun busy => ?_
  split
  · exact Keeps.throw
  · refine Keeps.bind (Neutral.orderly (.change fun _ => rfl)) fun _ =>
      Keeps.bind (Keeps.attempt kept) fun outcome => ?_
    exact Keeps.bind (Neutral.orderly (.change fun _ => rfl)) fun _ => Keeps.resume

/-- Rendering makes the element that is reconciled the root, whatever it was. -/
theorem render_orderly (fuel : Nat) (view : View α) :
    Keeps (Orderly gone) (render program fuel view) := by
  refine exclusively_orderly (Triple.consulting fun slot => ?_)
  have rerooted : ∀ id, Returns (Housed gone slot [⟨none, [id]⟩])
      (Run.change (fun owner => { owner with root := some id }) : Building α Unit)
      fun _ => Settled gone (some id) := fun id =>
    Returns.change fun owner housed => Placed.reroot (some id) housed
  refine Triple.weaken (Returns.bind
    (reconcile_child_placing program fuel gone slot none slot view .none [] []) ?rendered)
    (fun owner before => ?_) fun _ _ after => after
  case rendered =>
    rintro ⟨id, result⟩
    refine Returns.bind (rerooted id) fun _ => ?_
    exact Triple.resuming fun owner settled => ⟨some id, settled⟩
  obtain ⟨⟨root, settled⟩, rfl⟩ := before
  obtain rfl := settled.rooted
  exact Housed.perm settled (List.Perm.of_eq (List.append_nil _).symm)

theorem flush_element_settled (fuel : Nat) (id : ElementId) :
    Keeps (Settled gone root) (flushElement program fuel id) := by
  refine Triple.consulting fun needed => ?_
  cases needed with
  | false => exact Keeps.pure.weaken (fun _ before => before.1) fun _ _ settled => settled
  | true =>
    have rebuilt := @Settled.opened α _ gone root id
      (rebuild program (reconcileChild program fuel) fuel id) (fun _ => True) fun node _ =>
        rebuild_shuts (reconcile_child_placing program fuel) fuel program
    refine Triple.adjusting (fun owner before => ?_) rebuilt
    obtain ⟨element, mounted, _⟩ := needs_rebuild_iff.mp before.2
    refine ⟨?_, { element with dirty := false }, by simp [updateElement, mounted], trivial⟩
    have settled : Settled gone root owner := before.1
    unfold Settled Housed at settled ⊢
    have same := @update_element_shape α owner id (fun element => { element with dirty := false })
      fun _ => rfl
    rwa [same]

theorem flush_loop_settled (fuel rounds : Nat) :
    Keeps (Settled gone root) (flushLoop program fuel rounds) := by
  induction rounds with
  | zero => exact Keeps.diverge
  | succ rounds ih =>
    refine Keeps.bind Keeps.read fun pending => ?_
    split
    · exact Keeps.pure
    · refine Keeps.bind (Neutral.housed (.change fun _ => rfl)) fun _ => ?_
      exact Keeps.bind (Keeps.each (flush_element_settled program fuel) _) fun _ => ih

theorem flush_orderly (fuel : Nat) : Keeps (Orderly gone) (flush program fuel) :=
  exclusively_orderly (.of_settled fun _ => flush_loop_settled program fuel fuel)

omit [DecidableEq α] in
theorem has_pending_neutral (requests : ElementId → Option ChildRange) (fuel : Nat) :
    ∀ id, Neutral (hasPendingLazyChildren requests fuel id : Building α Bool) := by
  induction fuel with
  | zero => exact fun _ => .diverge
  | succ fuel ih =>
    intro id
    refine .bind .read fun found => ?_
    split
    · exact .pure
    · split
      · exact .pure
      · exact fun shape => Keeps.anyOf (fun child => ih child shape) _

omit [DecidableEq α] in
theorem lay_out_neutral (renderer : Renderer α) (fuel rounds : Nat) :
    Neutral (layOut renderer fuel rounds) := by
  refine .bind .read fun requests => .bind .resume fun requests => .bind .read fun root => ?_
  split
  · exact .pure
  · refine .bind (has_pending_neutral requests fuel _) fun found => ?_
    split
    · exact .pure
    · exact .pure

theorem realize_requests_orderly (fuel : Nat) (requests : ElementId → Option ChildRange) :
    Keeps (Orderly gone) (realizeRequests program fuel requests) := by
  refine Keeps.bind (exclusively_orderly (Keeps.bind Keeps.read fun root => ?_)) fun realized => ?_
  · split
    · exact Keeps.pure
    · exact .of_settled fun _ => realize_lazy_children_settled program requests fuel _
  · split
    · exact Keeps.pure
    · exact Keeps.throw

theorem frame_loop_orderly (renderer : Renderer α) (fuel rounds : Nat) :
    Keeps (Orderly gone) (frameLoop program renderer (flush program fuel) fuel rounds) := by
  have composited : Keeps (Orderly gone) (compositeFrame renderer) :=
    Keeps.bind Keeps.read fun _ => Keeps.resume
  induction rounds with
  | zero =>
    refine Keeps.bind (lay_out_neutral renderer fuel 0).orderly fun requests => ?_
    split
    · exact composited
    · exact Keeps.throw
  | succ rounds ih =>
    rw [frameLoop]
    refine Keeps.bind (lay_out_neutral renderer fuel (rounds + 1)).orderly fun requests => ?_
    split
    · exact composited
    · exact Keeps.bind (realize_requests_orderly program fuel _) fun _ =>
        Keeps.bind (flush_orderly program fuel) fun _ => ih

/-- Every call keeps the elements in their places, whether it returns or throws. -/
theorem perform_orderly (fuel : Nat) (call : Call α) :
    Keeps (Orderly gone) (perform program fuel call) := by
  cases call with
  | render view => exact render_orderly program fuel view
  | flush => exact flush_orderly program fuel
  | layerFrame renderer =>
    refine Keeps.bind Keeps.read fun framing => ?_
    split
    · exact Keeps.throw
    · refine Keeps.bind (Neutral.orderly (.change fun _ => rfl)) fun _ => ?_
      refine Keeps.bind (Keeps.attempt (Keeps.bind (flush_orderly program fuel) fun _ =>
        frame_loop_orderly program renderer fuel _)) fun outcome => ?_
      exact Keeps.bind (Neutral.orderly (.change fun _ => rfl)) fun _ => Keeps.resume
  | setState handle value => exact (set_state_neutral handle value).orderly
  | setSignal signal value =>
    exact Neutral.orderly (.change fun owner => write_shape owner _ value)
  | createSignal comparable value =>
    exact Neutral.orderly (.change fun owner => create_signal_shape owner _ value)
  | destroySignal signal => exact Neutral.orderly (.change fun owner => drop_source_shape owner _)

end Lazy

/-- Every run keeps them there. -/
theorem each_orderly [DecidableEq α] (script : List (Program α × Nat × Call α)) :
    ∀ owner last : BuildOwner α, Orderly gone owner → performEach script owner = some last →
    Orderly gone last := by
  induction script with
  | nil =>
    intro owner last orderly ran
    cases ran
    exact orderly
  | cons first rest ih =>
    obtain ⟨program, fuel, call⟩ := first
    intro owner last orderly ran
    rw [performEach] at ran
    split at ran
    · cases ran
    · exact ih _ last (perform_orderly program fuel call _ _ _ orderly ‹_›) ran

/-! ### Exactness -/

/-- A way from the root to an element, by its positions among the children of each and then
among those kept alive, the last one first. -/
inductive BuildOwner.PathTo (owner : BuildOwner α) : List Nat → ElementId → Prop where
  | root {id : ElementId} (first : owner.root = some id) : PathTo owner [] id
  | child {path : List Nat} {parent id : ElementId} {position : Nat} {element : Element α}
      (above : PathTo owner path parent) (there : owner.registry parent = some element)
      (listed : (element.children ++ element.lazyKeptAliveChildren)[position]? = some id) :
      PathTo owner (position :: path) id

theorem path_to_iff {owner : BuildOwner α} {path : List Nat} {id : ElementId} :
    owner.PathTo path id ↔ Hierarchy.PathTo Listing.all owner.shape path id := by
  constructor
  · intro reached
    induction reached with
    | root first => exact .root first
    | @child _ parent _ _ element _ there listed ih =>
      have found : owner.shape.nodes parent = some element.node := by simp [shape, there]
      exact .child ih found listed
  · intro reached
    induction reached with
    | root first => exact .root first
    | child _ there listed ih =>
      obtain ⟨element, mounted, rfl⟩ := Option.map_eq_some_iff.mp there
      exact .child ih mounted listed

theorem mounted_node {owner : BuildOwner α} {element : Element α}
    (mounted : owner.registry id = some element) : owner.shape.nodes id = some element.node := by
  simp [shape, mounted]

theorem Settled.registered {owner : BuildOwner α} :
    (owner.registry id).isSome ↔ ∃ node, owner.shape.nodes id = some node := by
  simp [shape, Option.isSome_iff_exists]

/-- An owner on which nothing has been called has nothing in it. -/
theorem settled_initially : Settled (fun _ => False) none ({} : BuildOwner α) where
  rooted := rfl
  turns := rfl
  issued := nofun
  away := nofun
  sound := nofun
  lineage := nofun
  closed := nofun
  holding opening listed := by
    obtain rfl := List.mem_singleton.mp listed
    exact ⟨List.nodup_nil, fun id => ⟨nofun, nofun⟩⟩
  present opening listed := by
    obtain rfl := List.mem_singleton.mp listed
    exact nofun
  descending := List.pairwise_singleton _ _
  counted := ⟨[], List.nodup_nil, fun id => ⟨nofun, nofun⟩, rfl⟩

/-- What is not there and has been there stays away from now on. -/
theorem Settled.leave {owner : BuildOwner α} (settled : Settled gone root owner) :
    Settled (fun id => id < owner.nextId ∧ owner.registry id = none) root owner where
  rooted := settled.rooted
  turns := settled.turns
  issued := settled.issued
  away id left := ⟨by simp [shape, left.2], left.1⟩
  sound := settled.sound
  lineage := settled.lineage
  closed := settled.closed
  holding := settled.holding
  present := settled.present
  descending := settled.descending
  counted := settled.counted

/-- After any calls the registry holds exactly the elements that are reached from the root,
each by one path. Ids are handed out in turn, as many as elements were mounted, and one
whose element is gone does not come back. What was mounted and not unmounted is there. An
element is one level below its parent. Builds are given handles with the generation of
their element, which is its id, and a handle resolves as long as the element is there. -/
theorem element_registry_exact [DecidableEq α] (script later : List (Program α × Nat × Call α))
    {owner last : BuildOwner α} (ran : performEach script {} = some owner)
    (went : performEach later owner = some last) :
    (∀ id, (owner.registry id).isSome ↔ ∃ path, owner.PathTo path id) ∧
      (∀ id first second, owner.PathTo first id → owner.PathTo second id → first = second) ∧
      owner.nextId = owner.mountCount + 1 ∧
      (∀ id, (owner.registry id).isSome → id < owner.nextId) ∧
      (∀ id, id < owner.nextId → owner.registry id = none → last.registry id = none) ∧
      (∃ ids : List ElementId, ids.Nodup ∧ (∀ id, id ∈ ids ↔ (owner.registry id).isSome) ∧
        owner.mountCount = owner.unmountCount + ids.length) ∧
      (∀ id element, owner.registry id = some element → owner.root = some id →
        element.parent = none ∧ element.depth = 0) ∧
      (∀ above parent id element, owner.registry above = some parent →
        owner.registry id = some element →
        id ∈ parent.children ++ parent.lazyKeptAliveChildren →
        element.parent = some above ∧ element.depth = parent.depth + 1) ∧
      (∀ id element, owner.registry id = some element → element.generation = id) ∧
      ∀ handle : StateHandle, (owner.resolve handle.element handle.generation).isSome ↔
        (owner.registry handle.element).isSome ∧ handle.generation = handle.element := by
  obtain ⟨root, settled⟩ := each_orderly script {} owner ⟨none, settled_initially⟩ ran
  obtain ⟨after, moved⟩ := each_orderly later owner last ⟨root, settled.leave⟩ went
  refine ⟨fun id => ?_, fun id first second one other => ?_, settled.turns, fun id there => ?_,
    fun id issued absent => ?_, ?_, fun id element mounted first => ?_,
    fun above parent id element upper mounted listed => ?_, fun id element mounted => ?_,
    fun handle => ?_⟩
  · simp only [path_to_iff]
    constructor
    · intro there
      obtain ⟨node, found⟩ := Settled.registered.mp there
      exact Placed.registered_path settled node.depth id node found rfl
    · rintro ⟨path, reached⟩
      exact Settled.registered.mpr (Placed.path_registered settled reached)
  · exact Placed.path_unique settled (path_to_iff.mp one) second (path_to_iff.mp other)
  · obtain ⟨node, found⟩ := Settled.registered.mp there
    exact settled.issued id node found
  · have away := (moved.away id ⟨issued, absent⟩).1
    simpa [shape] using away
  · obtain ⟨ids, distinct, members, balance⟩ := settled.counted
    exact ⟨ids, distinct, fun id => (members id).trans (by simp [shape]), balance⟩
  · have top : Names owner.shape id none :=
      (Placed.names_none settled).mpr (settled.rooted.symm.trans first)
    obtain ⟨_, found, named⟩ := top
    obtain rfl : element.node = _ := Option.some.inj ((mounted_node mounted).symm.trans found)
    rcases settled.lineage id element.node found with top | ⟨above, parent, named', _⟩
    · exact top
    · cases named.symm.trans named'
  · obtain ⟨_, found, named⟩ := (Placed.listed_iff settled (mounted_node upper)).mp listed
    obtain rfl : element.node = _ := Option.some.inj ((mounted_node mounted).symm.trans found)
    refine ⟨named, ?_⟩
    rcases settled.lineage id element.node found with
      ⟨top, _⟩ | ⟨other, parent', named', there, deep⟩
    · cases named.symm.trans top
    · cases named.symm.trans named'
      obtain rfl : parent.node = _ := Option.some.inj ((mounted_node upper).symm.trans there)
      exact deep
  · exact (settled.sound id element.node (mounted_node mounted)).generation
  · have generation : ∀ element, owner.registry handle.element = some element →
        element.generation = handle.element := fun element mounted =>
      (settled.sound _ element.node (mounted_node mounted)).generation
    cases mounted : owner.registry handle.element with
    | none => simp [resolve, mounted]
    | some element => simp [resolve, mounted, generation element mounted, eq_comm]

/-- A list of as many items as a signal says, of which the fifth has the key of the first. -/
def listProgram : Program Nat where
  build
    | 0, _ => .get 0 fun value => .done (.group 0 none [.leaf 0 none value,
        .forEach 0 ((List.range value).map fun item => (.unsigned (item % 4), item))])
    | _, item => .done (.leaf 0 none item)
  item _ value := .done (.component 1 value)

def listScript : List (Program Nat × Nat × Call Nat) :=
  [.createSignal true 3, .render (.component 0 7), .setSignal 0 5, .flush].map (listProgram, 20, ·)

/-- Fewer items again. -/
def shortScript : List (Program Nat × Nat × Call Nat) :=
  [.setSignal 0 2, .flush].map (listProgram, 20, ·)

/-- The flush throws for the key given twice, and the ten elements mounted before are there. -/
theorem element_registry_exact_list : ∃ owner last : BuildOwner Nat,
    performEach listScript {} = some owner ∧ performEach shortScript owner = some last ∧
      owner.nextId = 11 ∧ ∃ ids : List ElementId, ids.Nodup ∧
        (∀ id, id ∈ ids ↔ (owner.registry id).isSome) ∧ ids.length = 10 := by
  have mounted : ((performEach listScript {}).bind fun owner =>
      (performEach shortScript owner).map fun _ =>
        (owner.nextId, owner.mountCount, owner.unmountCount)) = some (11, 10, 0) := by
    decide +kernel
  obtain ⟨owner, ran, mounted⟩ := Option.bind_eq_some_iff.mp mounted
  obtain ⟨last, went, shown⟩ := Option.map_eq_some_iff.mp mounted
  simp only [Prod.mk.injEq] at shown
  obtain ⟨issued, made, removed⟩ := shown
  obtain ⟨_, _, _, _, _, ⟨ids, distinct, members, balance⟩, _⟩ :=
    element_registry_exact listScript shortScript ran went
  exact ⟨owner, last, ran, went, issued, ids, distinct, members, by omega⟩

end Dui
