import Dui.ElementShape
import Dui.BuildRuns

/-! Reconciliation keeps every element in one place: listed by its parent, or held by the
function that is editing the parent's lists. The functions that take the reconciler as
an argument keep the places if that does, and `reconcile_child` does by induction on its
fuel. -/
namespace Dui
open Effect BuildOwner Hierarchy

variable {α β : Type} {gone : ElementId → Prop} {root : Option ElementId}
  {hollow outer : List (Opening Listing)} {place : Option (ElementId × Node Listing)}
  {held : List ElementId} {id : ElementId} {node : Node Listing}

/-- The elements are in their places, or held for the lists that are open. -/
def Housed (gone : ElementId → Prop) (root : Option ElementId) (hollow : List (Opening Listing))
    (owner : BuildOwner α) : Prop :=
  Placed Listing.all Listing.Fit gone root hollow owner.shape

/-- A list is open that may be closed. -/
def Shut (gone : ElementId → Prop) (root : Option ElementId) (hollow : List (Opening Listing))
    (id : ElementId) (owner : BuildOwner α) : Prop :=
  ∃ node held, Housed gone root (⟨some (id, node), held⟩ :: hollow) owner ∧
    held.Perm node.info.all

theorem Housed.perm {other : List ElementId} {owner : BuildOwner α}
    (housed : Housed gone root (⟨place, held⟩ :: outer) owner) (same : held.Perm other) :
    Housed gone root (⟨place, other⟩ :: outer) owner := Placed.perm housed same

theorem Shut.housed {owner : BuildOwner α} (shut : Shut gone root hollow id owner) :
    Housed gone root hollow owner := by
  obtain ⟨node, held, housed, same⟩ := shut
  exact Placed.pop housed same

/-- The element whose list is open is there as it was when it was opened. -/
theorem Housed.there {owner : BuildOwner α}
    (housed : Housed gone root (⟨some (id, node), held⟩ :: outer) owner) :
    ∃ element, owner.registry id = some element ∧ element.node = node :=
  Option.map_eq_some_iff.mp (housed.present _ List.mem_cons_self id node rfl)

/-- An element that is held is there, at the depth of what is held. -/
theorem Housed.held_there {owner : BuildOwner α}
    (housed : Housed gone root (⟨place, id :: held⟩ :: outer) owner) :
    ∃ element, owner.registry id = some element ∧
      ∀ opening ∈ (⟨place, id :: held⟩ :: outer : List (Opening Listing)),
        opening.level ≤ element.depth := by
  obtain ⟨node, found, _, depth⟩ := Placed.held_node housed List.mem_cons_self
  obtain ⟨element, mounted, rfl⟩ := Option.map_eq_some_iff.mp found
  refine ⟨element, mounted, List.forall_mem_cons.mpr ⟨depth.ge, fun opening listed => ?_⟩⟩
  exact Nat.le_trans (Nat.le_of_lt ((List.pairwise_cons.mp housed.descending).1 opening listed))
    depth.ge

/-- Opens the lists of an element. -/
theorem Housed.push {owner : BuildOwner α} {element : Element α}
    (housed : Housed gone root hollow owner) (mounted : owner.registry id = some element)
    (deep : ∀ opening ∈ hollow, opening.level ≤ element.depth) :
    Housed gone root (⟨some (id, element.node), element.node.info.all⟩ :: hollow) owner :=
  Placed.push housed (by simp [shape, mounted]) deep

theorem Neutral.housed {run : Building α β} (neutral : Neutral run) :
    Keeps (Housed gone root hollow) run :=
  neutral.keeps (Placed Listing.all Listing.Fit gone root hollow)

theorem Neutral.shut {run : Building α β} (neutral : Neutral run) :
    Keeps (Shut gone root hollow id) run :=
  neutral.keeps fun shape => ∃ node held,
    Placed Listing.all Listing.Fit gone root (⟨some (id, node), held⟩ :: hollow) shape ∧
      held.Perm node.info.all

/-! ### Unmounting -/

/-- What is unmounted is no longer held, and what is held around it stays. -/
def Frees (unmount : ElementId → Building α Unit) : Prop :=
  ∀ (gone : ElementId → Prop) root place id held outer,
    Returns (Housed gone root (⟨place, id :: held⟩ :: outer)) (unmount id)
      fun _ => Housed gone root (⟨place, held⟩ :: outer)

theorem Frees.each {unmount : ElementId → Building α Unit} (frees : Frees unmount)
    (ids : List ElementId) : Returns (Housed gone root (⟨place, ids ++ held⟩ :: outer))
      (Run.each unmount ids) fun _ => Housed gone root (⟨place, held⟩ :: outer) := by
  induction ids with
  | nil => exact Returns.pure fun _ housed => housed
  | cons id ids ih => exact Returns.bind (frees gone root place id (ids ++ held) outer) fun _ => ih

/-- Unmounting frees an element and everything below it, by induction on how deep it goes. -/
theorem unmount_frees (fuel : Nat) : Frees (unmount fuel : ElementId → Building α Unit) := by
  induction fuel with
  | zero => exact fun _ _ _ _ _ _ => Returns.diverge
  | succ fuel ih =>
    intro gone root place id held outer
    refine Triple.consulting fun found => ?_
    cases found with
    | none =>
      rintro owner outcome next ⟨housed, missing⟩
      obtain ⟨element, mounted, _⟩ := housed.held_there
      cases missing.symm.trans mounted
    | some element =>
      have children := (ih.each element.children : Returns (Housed gone root
        (⟨some (id, element.node), element.children ++ element.lazyKeptAliveChildren⟩ ::
          ⟨place, id :: held⟩ :: outer)) _ _)
      have kept := (ih.each element.lazyKeptAliveChildren : Returns (Housed gone root
        (⟨some (id, element.node), element.lazyKeptAliveChildren ++ []⟩ ::
          ⟨place, id :: held⟩ :: outer)) _ _)
      rw [List.append_nil] at kept
      have removed : Returns (Housed gone root (⟨some (id, element.node), []⟩ ::
          ⟨place, id :: held⟩ :: outer)) (Run.change (·.removeElement id) : Building α Unit)
          fun _ => Housed gone root (⟨place, held⟩ :: outer) := by
        refine Returns.change fun owner housed => ?_
        unfold Housed
        rw [remove_element_shape]
        exact Placed.remove housed
      have opened := Returns.bind children fun _ => Returns.bind kept fun _ => removed
      refine opened.weaken (fun owner before => ?_) fun _ _ after => after
      obtain ⟨housed, mounted⟩ := before
      obtain ⟨other, again, deep⟩ := housed.held_there
      cases mounted.symm.trans again
      exact housed.push mounted deep

/-- Unmounting some of what is held. -/
theorem unmount_each {before after : List ElementId} (fuel : Nat) (ids : List ElementId)
    (same : before.Perm (ids ++ after)) : Returns (Housed gone root (⟨place, before⟩ :: outer))
      (Run.each (unmount fuel) ids : Building α Unit)
      fun _ => Housed gone root (⟨place, after⟩ :: outer) :=
  ((unmount_frees fuel).each ids).weaken (fun _ housed => housed.perm same) fun _ _ housed => housed

theorem unmount_one {before after : List ElementId} (fuel : Nat)
    (same : before.Perm (id :: after)) : Returns (Housed gone root (⟨place, before⟩ :: outer))
      (unmount fuel id : Building α Unit) fun _ => Housed gone root (⟨place, after⟩ :: outer) :=
  (unmount_frees fuel gone root place id after outer).weaken (fun _ housed => housed.perm same)
    fun _ _ housed => housed

theorem change_housed {f : BuildOwner α → BuildOwner α}
    (same : ∀ owner, (f owner).shape = owner.shape) :
    Returns (Housed gone root hollow) (Run.change f : Building α Unit)
      fun _ => Housed gone root hollow :=
  Returns.change fun owner housed => by
    unfold Housed
    rwa [same]

theorem read_housed {view : BuildOwner α → β} :
    Returns (Housed gone root hollow) (Run.read view : Building α β)
      fun _ => Housed gone root hollow := Returns.read fun _ housed => housed

/-- Where lists are opened inside a build scope they are closed inside it. -/
theorem with_scope_shuts {run : Building α Unit} {inner : List (Opening Listing)}
    (shuts : Triple (Housed gone root inner) run fun _ => Shut gone root hollow id) :
    Triple (Housed gone root inner) (withScope id run) fun _ => Shut gone root hollow id := by
  refine Returns.bind read_housed fun previous => ?_
  refine Returns.bind (change_housed fun owner => rfl) fun _ => ?_
  refine Returns.bind (Returns.attempt shuts) fun outcome => ?_
  exact Triple.bind (Neutral.shut (.change fun owner => rfl)) (fun _ => Neutral.resume.shut)
    fun _ _ shut => shut

/-! ### Lists -/

/-- A node that lists other children. -/
def listing (node : Node Listing) (children keptAlive : List ElementId) : Node Listing :=
  { node with info := { node.info with children, keptAlive } }

@[simp] theorem listing_children (children keptAlive : List ElementId) :
    (listing node children keptAlive).info.children = children := rfl

@[simp] theorem listing_kept_alive (children keptAlive : List ElementId) :
    (listing node children keptAlive).info.keptAlive = keptAlive := rfl

theorem children_of_open : Returns (Housed gone root (⟨some (id, node), held⟩ :: outer))
    (childrenOf id : Building α (List ElementId)) fun children owner =>
      children = node.info.children ∧
        Housed gone root (⟨some (id, node), held⟩ :: outer) owner := by
  refine Returns.read fun owner housed => ⟨?_, housed⟩
  obtain ⟨element, mounted, rfl⟩ := housed.there
  simp only [mounted]
  rfl

theorem kept_alive_of_open : Returns (Housed gone root (⟨some (id, node), held⟩ :: outer))
    (Run.read fun owner => match owner.registry id with
      | none => []
      | some element => element.lazyKeptAliveChildren : Building α (List ElementId))
    fun keptAlive owner => keptAlive = node.info.keptAlive ∧
      Housed gone root (⟨some (id, node), held⟩ :: outer) owner := by
  refine Returns.read fun owner housed => ⟨?_, housed⟩
  obtain ⟨element, mounted, rfl⟩ := housed.there
  simp only [mounted]
  rfl

/-- What is known of the element by itself. -/
theorem Housed.fit {owner : BuildOwner α}
    (housed : Housed gone root (⟨some (id, node), held⟩ :: outer) owner) : node.info.Fit id :=
  housed.sound id node (housed.present _ List.mem_cons_self id node rfl)

/-- Relisting the element whose lists are open. -/
theorem relist {f : Element α → Element α} {relist : Listing → Listing}
    (listed : ∀ element, (f element).node = { element.node with info := relist element.node.info })
    (fit : node.info.Fit id → (relist node.info).Fit id) :
    Returns (Housed gone root (⟨some (id, node), held⟩ :: outer))
      (Run.change (·.updateElement id f) : Building α Unit) fun _ =>
        Housed gone root (⟨some (id, { node with info := relist node.info }), held⟩ :: outer) := by
  refine Returns.change fun owner housed => ?_
  unfold Housed
  rw [relist_shape owner (housed.present _ List.mem_cons_self id node rfl) listed]
  exact Placed.set_info housed (fit housed.fit)

theorem set_children_open {children : List ElementId}
    (single : node.info.kind.narrow = true → node.info.children.length ≤ 1 → children.length ≤ 1) :
    Returns (Housed gone root (⟨some (id, node), held⟩ :: outer))
      (setChildren id children : Building α Unit) fun _ =>
        Housed gone root (⟨some (id, listing node children node.info.keptAlive), held⟩ :: outer) :=
  @relist α gone root outer held id node _ (fun info => { info with children }) (fun _ => rfl)
    fun fit => ⟨fit.generation, fun narrow => single narrow (fit.single narrow), fit.lazy⟩

theorem set_kept_alive_open {keptAlive : List ElementId} :
    Returns (Housed gone root (⟨some (id, node), held⟩ :: outer))
      (setKeptAlive id keptAlive : Building α Unit) fun _ =>
        Housed gone root (⟨some (id, listing node node.info.children keptAlive), held⟩ :: outer) :=
  @relist α gone root outer held id node _ (fun info => { info with keptAlive }) (fun _ => rfl)
    fun fit => ⟨fit.generation, fit.single, fit.lazy⟩

/-- A list that holds what it is to list may be closed. -/
theorem set_children_shut {children : List ElementId}
    (single : node.info.kind.narrow = true → node.info.children.length ≤ 1 → children.length ≤ 1)
    (same : held.Perm (children ++ node.info.keptAlive)) :
    Triple (Housed gone root (⟨some (id, node), held⟩ :: outer))
      (setChildren id children : Building α Unit) fun _ => Shut gone root outer id :=
  Triple.weaken (set_children_open single) (fun _ housed => housed)
    fun _ _ ⟨_, _, housed⟩ => ⟨_, held, housed, same⟩

/-- A reconciler that takes the slot's element out of what is held and puts the one it
returns in its place. -/
def Placing (reconcile : Reconciler α) : Prop :=
  ∀ (gone : ElementId → Prop) root place slot view key held outer,
    Returns (Housed gone root (⟨place, slot.toList ++ held⟩ :: outer))
      (reconcile slot view (place.map (·.1)) key)
      fun result => Housed gone root (⟨place, result.1 :: held⟩ :: outer)

/-- Reconciling a child of the element whose lists are open. -/
theorem Placing.child {reconcile : Reconciler α} (placing : Placing reconcile)
    {slot : Option ElementId} {before after : List ElementId} (view : View α) (key : Key)
    (same : before.Perm (slot.toList ++ after)) :
    Returns (Housed gone root (⟨some (id, node), before⟩ :: outer))
      (reconcile slot view (some id) key)
      fun result => Housed gone root (⟨some (id, node), result.1 :: after⟩ :: outer) :=
  (placing gone root (some (id, node)) slot view key after outer).weaken
    (fun _ housed => housed.perm same) fun _ _ housed => housed

section Children
variable {reconcile : Reconciler α} (placing : Placing reconcile) (fuel : Nat)
include placing

/-- The children of a view with a fixed number of them, by induction on the views. -/
theorem update_static_children_places (wide : node.info.kind.narrow = false)
    (views : List (View α)) : ∀ done rest,
    Triple (Housed gone root (⟨some (id, listing node (done ++ rest) node.info.keptAlive),
        done ++ rest ++ node.info.keptAlive⟩ :: hollow))
      (updateStaticChildren reconcile fuel id done views rest)
      fun _ => Shut gone root hollow id := by
  have many : node.info.kind.narrow ≠ true := by simp [wide]
  induction views with
  | nil =>
    intro done rest
    refine Returns.bind (unmount_each fuel rest.reverse (List.perm_iff_count.mpr fun child => ?_))
      fun _ => set_children_shut (fun narrow => absurd narrow many) (List.Perm.refl _)
    simp only [List.count_append, List.count_reverse, listing_kept_alive]
    omega
  | cons view views ih =>
    intro done rest
    have taken : (done ++ rest ++ node.info.keptAlive).Perm
        (rest.head?.toList ++ (done ++ rest.tail ++ node.info.keptAlive)) := by
      refine List.perm_iff_count.mpr fun child => ?_
      cases rest with
      | nil => rfl
      | cons first rest =>
        simp only [List.head?_cons, Option.toList_some, List.tail_cons, List.count_append,
          List.count_cons, List.count_nil]
        omega
    refine Returns.bind (placing.child view .none taken) fun (child, result) => ?_
    refine Returns.bind (set_children_open fun narrow => absurd narrow many) fun _ => ?_
    have relisted : (child :: (done ++ rest.tail ++ node.info.keptAlive)).Perm
        (done ++ child :: rest.tail ++ node.info.keptAlive) := by
      refine List.perm_iff_count.mpr fun other => ?_
      simp only [List.count_append, List.count_cons]
      omega
    cases result with
    | error failure =>
      exact Triple.throwing fun owner housed => ⟨_, _, housed, relisted⟩
    | ok =>
      have rest := ih (done ++ [child]) rest.tail
      rw [List.append_assoc, List.singleton_append] at rest
      exact rest.weaken (fun owner housed => housed.perm relisted) fun _ _ shut => shut

/-- The first child of an element and what is done after it. -/
theorem update_first_child_places (view : View α) :
    Triple (Housed gone root (⟨some (id, node), node.info.all⟩ :: hollow))
      (updateFirstChild reconcile id view) fun outcome owner => ∃ child,
        Housed gone root (⟨some (id, listing node (child :: node.info.children.tail)
          node.info.keptAlive), child :: node.info.children.tail ++ node.info.keptAlive⟩ ::
          hollow) owner ∧ ∀ value, outcome = .ok value → value = child := by
  refine Returns.bind children_of_open fun children => Triple.given fun same => ?_
  subst same
  have taken : node.info.all.Perm (node.info.children.head?.toList ++
      (node.info.children.tail ++ node.info.keptAlive)) := by
    unfold Listing.all
    cases node.info.children <;> exact List.Perm.refl _
  refine Returns.bind (placing.child view .none taken) fun (child, result) => ?_
  have single : node.info.kind.narrow = true → node.info.children.length ≤ 1 →
      (child :: node.info.children.tail).length ≤ 1 := fun _ few => by
    simp only [List.length_cons, List.length_tail]
    omega
  refine Returns.bind (set_children_open single) fun _ => ?_
  cases result with
  | error failure => exact Triple.throwing fun owner housed => ⟨child, housed, nofun⟩
  | ok =>
    refine Triple.returning fun owner housed => ⟨child, housed, fun value same => ?_⟩
    cases same
    rfl

theorem update_first_child_shuts (view : View α) :
    Triple (Housed gone root (⟨some (id, node), node.info.all⟩ :: hollow))
      (updateFirstChild reconcile id view) fun _ => Shut gone root hollow id :=
  (update_first_child_places placing view).weaken (fun _ housed => housed)
    fun _ _ ⟨_, housed, _⟩ => ⟨_, _, housed, List.Perm.refl _⟩

theorem update_only_child_shuts (view : View α) :
    Triple (Housed gone root (⟨some (id, node), node.info.all⟩ :: hollow))
      (updateOnlyChild reconcile fuel id view) fun _ => Shut gone root hollow id := by
  refine Returns.bind children_of_open fun children => Triple.given fun same => ?_
  subst same
  refine Triple.bind (update_first_child_places placing view) (fun child => ?_)
    fun failure owner ⟨_, housed, _⟩ => ⟨_, _, housed, List.Perm.refl _⟩
  have freed : Triple (Housed gone root (⟨some (id, listing node
      (child :: node.info.children.tail) node.info.keptAlive),
      child :: node.info.children.tail ++ node.info.keptAlive⟩ :: hollow))
      (do Run.each (unmount fuel) node.info.children.tail.reverse
          setChildren id [child] : Building α Unit) fun _ => Shut gone root hollow id := by
    refine Returns.bind (unmount_each fuel _ (List.perm_iff_count.mpr fun other => ?_))
      fun _ => set_children_shut (fun _ _ => by simp) (List.Perm.refl _)
    simp only [List.count_append, List.count_cons, List.count_reverse, listing_kept_alive,
      List.count_nil]
    omega
  refine freed.weaken ?_ fun _ _ shut => shut
  rintro owner ⟨_, housed, same⟩
  cases same child rfl
  exact housed

omit placing in
/-- The first child goes, and there is no other where views have at most one. -/
theorem drop_first_child_places (narrow : node.info.kind.narrow = true) :
    Returns (Housed gone root (⟨some (id, node), node.info.all⟩ :: hollow))
      (dropFirstChild fuel id : Building α Unit) fun _ owner => ∃ children,
        Housed gone root (⟨some (id, listing node children node.info.keptAlive),
          children ++ node.info.keptAlive⟩ :: hollow) owner := by
  refine Triple.knowing (fun owner housed => housed.fit.single narrow) fun few => ?_
  refine Returns.bind children_of_open fun children => Triple.given fun same => ?_
  subst same
  cases listed : node.info.children with
  | nil => exact Returns.pure fun owner housed => ⟨node.info.children, housed⟩
  | cons child rest =>
    rw [listed] at few
    obtain rfl : rest = [] := List.length_eq_zero_iff.mp (by simpa using few)
    have alone : node.info.all.Perm (child :: node.info.keptAlive) := by
      rw [Listing.all, listed]
      exact List.Perm.refl _
    refine Returns.bind (unmount_one fuel alone) fun _ => ?_
    exact (set_children_open fun _ _ => by simp).weaken (fun _ housed => housed)
      fun _ _ housed => ⟨[], housed⟩

/-- The items of a list, one after the other: the children reconciled so far and those left
over are held, and after a throw none is. -/
theorem reconcile_items_places (items : List (Key × View α)) : ∀ next previous,
    Triple (Housed gone root (⟨some (id, listing node [] node.info.keptAlive),
        next ++ previous ++ node.info.keptAlive⟩ :: hollow))
      (reconcileItems reconcile fuel id next previous items) fun outcome owner =>
        (∀ failure, outcome = .error failure → Shut gone root hollow id owner) ∧
          ∀ all left, outcome = .ok (all, left) →
            Housed gone root (⟨some (id, listing node [] node.info.keptAlive),
              all ++ left ++ node.info.keptAlive⟩ :: hollow) owner := by
  induction items with
  | nil =>
    intro next previous
    refine Triple.returning fun owner housed => ⟨?_, fun all left same => ?_⟩
    · intro failure same
      cases same
    · cases same
      exact housed
  | cons item items ih =>
    intro next previous
    obtain ⟨key, view⟩ := item
    refine Triple.consulting fun found => ?_
    -- every child that is held goes, and the lists are left empty
    have failed : ∀ remaining child failure, Triple (Housed gone root
          (⟨some (id, listing node [] node.info.keptAlive),
            child :: (next ++ remaining ++ node.info.keptAlive)⟩ :: hollow)) (do
          unmount fuel child
          Run.each (unmount fuel) remaining
          Run.each (unmount fuel) next
          setChildren id []
          Run.throw failure : Building α (List ElementId × List ElementId)) fun outcome owner =>
            (∀ failure, outcome = .error failure → Shut gone root hollow id owner) ∧
            ∀ all left, outcome = .ok (all, left) →
              Housed gone root (⟨some (id, listing node [] node.info.keptAlive),
                all ++ left ++ node.info.keptAlive⟩ :: hollow) owner := by
      intro remaining child failure
      have aside : (next ++ remaining ++ node.info.keptAlive).Perm
          (remaining ++ (next ++ node.info.keptAlive)) := by
        refine List.perm_iff_count.mpr fun child => ?_
        simp only [List.count_append]
        omega
      have shut : ∀ {failure : Failure} {owner : BuildOwner α}, Shut gone root hollow id owner →
          (∀ other, (.error failure : Except Failure (List ElementId × List ElementId)) =
            .error other → Shut gone root hollow id owner) ∧
          ∀ all left, (.error failure : Except Failure (List ElementId × List ElementId)) =
            .ok (all, left) → Housed gone root (⟨some (id, listing node [] node.info.keptAlive),
              all ++ left ++ node.info.keptAlive⟩ :: hollow) owner := by
        intro failure owner shut
        apply And.intro fun _ _ => shut
        intro all left same
        cases same
      refine Returns.bind (unmount_one fuel (List.Perm.refl _)) fun _ =>
        Returns.bind (unmount_each fuel remaining aside) fun _ =>
          Returns.bind (unmount_each fuel next (List.Perm.refl _)) fun _ => ?_
      refine Triple.bind (set_children_shut (fun _ _ => by simp) (List.Perm.refl _))
        (fun _ => ?_) fun _ _ => shut
      exact Triple.throwing fun _ => shut
    have went : ∀ remaining child, Triple (Housed gone root
          (⟨some (id, listing node [] node.info.keptAlive),
            child :: (next ++ remaining ++ node.info.keptAlive)⟩ :: hollow))
        (reconcileItems reconcile fuel id (next ++ [child]) remaining items) fun outcome owner =>
            (∀ failure, outcome = .error failure → Shut gone root hollow id owner) ∧
            ∀ all left, outcome = .ok (all, left) →
              Housed gone root (⟨some (id, listing node [] node.info.keptAlive),
                all ++ left ++ node.info.keptAlive⟩ :: hollow) owner := by
      intro remaining child
      refine Triple.weaken (ih (next ++ [child]) remaining)
        (fun owner housed => Housed.perm housed ?_) fun _ _ after => after
      refine List.perm_iff_count.mpr fun other => ?_
      simp only [List.count_append, List.count_cons, List.count_nil]
      omega
    have taken : ∀ {remaining : List ElementId}, previous.Perm (found.toList ++ remaining) →
        (next ++ previous ++ node.info.keptAlive).Perm
          (found.toList ++ (next ++ remaining ++ node.info.keptAlive)) := by
      intro remaining split
      refine List.perm_iff_count.mpr fun child => ?_
      have same := split.count_eq child
      simp only [List.count_append] at same ⊢
      omega
    cases found with
    | none =>
      refine Triple.weaken (Returns.bind (placing.child view key (taken (List.Perm.refl _))) ?_)
        (fun _ held => held.1) fun _ _ after => after
      rintro ⟨child, result⟩
      cases result with
      | error failure => exact failed previous child failure
      | ok => exact went previous child
    | some child =>
      refine Triple.knowing (fun owner held => List.mem_of_find?_eq_some held.2) fun listed => ?_
      refine Triple.weaken (Returns.bind
        (placing.child view key (taken (List.perm_cons_erase listed))) ?_)
        (fun _ held => held.1) fun _ _ after => after
      rintro ⟨made, result⟩
      cases result with
      | error failure => exact failed (previous.erase child) made failure
      | ok => exact went (previous.erase child) made

variable [DecidableEq α] (program : Program α)

theorem update_for_each_shuts (wide : node.info.kind.narrow = false) (type : TypeToken)
    (items : List (Key × α)) :
    Triple (Housed gone root (⟨some (id, node), node.info.all⟩ :: hollow))
      (updateForEach program reconcile fuel id type items) fun _ => Shut gone root hollow id := by
  have many : node.info.kind.narrow ≠ true := by simp [wide]
  refine Triple.bind (build_items_neutral program type items []).housed (fun views => ?_)
    fun failure owner housed => ⟨_, _, housed, List.Perm.refl _⟩
  refine Returns.bind children_of_open fun previous => Triple.given fun same => ?_
  subst same
  refine Returns.bind (set_children_open fun narrow => absurd narrow many) fun _ => ?_
  refine Triple.bind (reconcile_items_places placing fuel views [] node.info.children)
    (fun (all, left) => ?_) fun failure owner after => after.1 failure rfl
  have closing : Triple (Housed gone root (⟨some (id, listing node [] node.info.keptAlive),
      all ++ left ++ node.info.keptAlive⟩ :: hollow))
      (do Run.each (unmount fuel) left
          setChildren id all : Building α Unit) fun _ => Shut gone root hollow id := by
    refine Returns.bind (unmount_each fuel left (List.perm_iff_count.mpr fun child => ?_))
      fun _ => set_children_shut (fun narrow => absurd narrow many) (List.Perm.refl _)
    simp only [List.count_append, listing_kept_alive]
    omega
  exact closing.weaken (fun owner after => after.2 all left rfl) fun _ _ shut => shut

theorem rebuild_shuts :
    Triple (Housed gone root (⟨some (id, node), node.info.all⟩ :: hollow))
      (rebuild program reconcile fuel id) fun _ => Shut gone root hollow id := by
  refine Returns.bind (change_housed fun owner => clear_dependencies_shape owner id)
    fun _ => with_scope_shuts ?_
  refine Returns.bind read_housed fun found => ?_
  split
  · exact Triple.diverging
  · refine Triple.bind (run_build_neutral _).housed (fun view => ?_)
      fun failure owner housed => ⟨_, _, housed, List.Perm.refl _⟩
    exact update_only_child_shuts placing fuel view

theorem update_component_shuts (type : TypeToken) (descriptor : α) :
    Triple (Housed gone root (⟨some (id, node), node.info.all⟩ :: hollow))
      (updateComponent program reconcile fuel id type descriptor)
      fun _ => Shut gone root hollow id := by
  refine Returns.bind read_housed fun equivalent => ?_
  refine Returns.bind (change_housed fun owner => update_element_shape owner fun _ => rfl)
    fun _ => ?_
  refine Returns.bind read_housed fun rebuilding => ?_
  split
  · exact Triple.returning fun owner housed => ⟨_, _, housed, List.Perm.refl _⟩
  · exact Returns.bind (change_housed fun owner => update_element_shape owner fun _ => rfl)
      fun _ => rebuild_shuts placing fuel program

end Children

/-! ### Lazy lists -/

/-- Reading the element whose lists are open. -/
theorem reading_open {next : Option (Element α) → Building α β}
    {after : Except Failure β → BuildOwner α → Prop}
    (rest : ∀ element, element.node = node → Triple
      (Housed gone root (⟨some (id, node), held⟩ :: outer)) (next (some element)) after) :
    Triple (Housed gone root (⟨some (id, node), held⟩ :: outer))
      (Run.read (·.registry id) >>= next) after := by
  rintro owner outcome last housed ran
  obtain ⟨element, mounted, same⟩ := housed.there
  refine rest element same owner outcome last housed ?_
  rw [← mounted]
  exact ran

/-- A list of children kept alive that holds what it is to list may be closed. -/
theorem set_kept_alive_shut {keptAlive : List ElementId}
    (same : held.Perm (node.info.children ++ keptAlive)) :
    Triple (Housed gone root (⟨some (id, node), held⟩ :: outer))
      (setKeptAlive id keptAlive : Building α Unit) fun _ => Shut gone root outer id :=
  Triple.weaken set_kept_alive_open (fun _ housed => housed)
    fun _ _ ⟨_, _, housed⟩ => ⟨_, held, housed, same⟩

theorem enforce_limit_shuts (fuel : Nat) (same : held.Perm node.info.all) :
    Triple (Housed gone root (⟨some (id, node), held⟩ :: hollow))
      (enforceLazyKeepAliveLimit fuel id : Building α Unit) fun _ => Shut gone root hollow id := by
  refine reading_open fun element unchanged => ?_
  subst unchanged
  dsimp only
  split
  · exact Triple.returning fun owner housed => ⟨_, _, housed, same⟩
  · rename_i limit _
    have split : held.Perm (element.lazyKeptAliveChildren.take
        (element.lazyKeptAliveChildren.length - limit) ++ (element.children ++
          element.lazyKeptAliveChildren.drop (element.lazyKeptAliveChildren.length - limit))) := by
      refine same.trans (List.perm_iff_count.mpr fun child => ?_)
      have whole := congrArg (List.count child) (List.take_append_drop
        (element.lazyKeptAliveChildren.length - limit) element.lazyKeptAliveChildren)
      simp only [Listing.all, Element.node, List.count_append] at whole ⊢
      omega
    exact Returns.bind (unmount_each fuel _ split) fun _ => set_kept_alive_shut (List.Perm.refl _)

theorem update_lazy_list_shuts (fuel : Nat) (kind : node.info.kind = .lazyList)
    (model : LazyModel α) :
    Triple (Housed gone root (⟨some (id, node), node.info.all⟩ :: hollow))
      (updateLazyList fuel id model) fun _ => Shut gone root hollow id := by
  have relisted := @relist α gone root hollow node.info.all id node
    (fun element => { element with
      lazyModel := some model, lazyRevision := element.lazyRevision + 1 })
    (fun info => { info with policy := some model.policy }) (fun _ => rfl)
    fun fit => ⟨fit.generation, fit.single, fun _ => kind⟩
  refine Returns.bind relisted fun _ => ?_
  refine Returns.bind kept_alive_of_open fun keptAlive => Triple.given fun same => ?_
  subst same
  refine Returns.bind read_housed fun keeps => ?_
  have split : node.info.all.Perm (node.info.keptAlive.filter (!keeps ·) ++
      (node.info.children ++ node.info.keptAlive.filter keeps)) := by
    refine List.perm_iff_count.mpr fun child => ?_
    have whole := (List.filter_append_perm keeps node.info.keptAlive).count_eq child
    simp only [Listing.all, List.count_append] at whole ⊢
    omega
  refine Returns.bind (unmount_each fuel _ split) fun _ => ?_
  exact Returns.bind set_kept_alive_open fun _ => enforce_limit_shuts fuel (List.Perm.refl _)

/-! ### Updating views -/

section Updates
variable [DecidableEq α] (program : Program α) {reconcile : Reconciler α}
  (placing : Placing reconcile) (fuel : Nat)
include placing

/-- Updating an element of the view's type. -/
theorem update_view_shuts (view : View α) (kind : node.info.kind = view.token.1) :
    Triple (Housed gone root (⟨some (id, node), node.info.all⟩ :: hollow))
      (updateView program reconcile fuel id view) fun _ => Shut gone root hollow id := by
  have still : ∀ owner : BuildOwner α,
      Housed gone root (⟨some (id, node), node.info.all⟩ :: hollow) owner →
        Shut gone root hollow id owner := fun owner housed => ⟨_, _, housed, List.Perm.refl _⟩
  cases view with
  | component type descriptor => exact update_component_shuts placing fuel program type descriptor
  | leaf type rejected value =>
    refine Returns.bind (change_housed fun owner => update_element_shape owner fun _ => rfl)
      fun _ => ?_
    cases rejected with
    | some failure => exact Triple.throwing still
    | none =>
      refine Returns.bind children_of_open fun children => Triple.given fun same => ?_
      subst same
      refine Returns.bind (unmount_each fuel _ (List.perm_iff_count.mpr fun child => ?_))
        fun _ => set_children_shut (fun _ _ => by simp) (List.Perm.refl _)
      simp only [Listing.all, List.count_append, List.count_reverse, List.nil_append]
  | group type rejected views =>
    cases rejected with
    | some failure => exact Triple.throwing still
    | none =>
      refine Returns.bind children_of_open fun children => Triple.given fun same => ?_
      subst same
      exact update_static_children_places placing fuel (by simp [kind, View.token, ViewKind.narrow])
        views [] node.info.children
  | single type rejected child =>
    cases rejected with
    | some failure => exact Triple.throwing still
    | none =>
      exact Triple.bind (update_first_child_shuts placing child)
        (fun _ => Triple.returning fun _ shut => shut) fun _ _ shut => shut
  | environment type values child =>
    refine Triple.bind (Neutral.housed (.each (fun (type, value) => .change fun owner =>
      set_environment_shape owner program id type value) values)) (fun _ => ?_)
      fun _ owner housed => still owner housed
    exact update_only_child_shuts placing fuel child
  | optional type child =>
    cases child with
    | none =>
      have narrow : node.info.kind.narrow = true := by simp [kind, View.token, ViewKind.narrow]
      exact Triple.weaken (drop_first_child_places fuel narrow) (fun _ housed => housed)
        fun _ _ ⟨_, _, _, housed⟩ => ⟨_, _, housed, List.Perm.refl _⟩
    | some child =>
      exact Triple.bind (update_first_child_shuts placing child)
        (fun _ => Triple.returning fun _ shut => shut) fun _ _ shut => shut
  | choice type branch child =>
    have narrow : node.info.kind.narrow = true := by simp [kind, View.token, ViewKind.narrow]
    have chosen : ∀ children, Triple
        (Housed gone root (⟨some (id, listing node children node.info.keptAlive),
          children ++ node.info.keptAlive⟩ :: hollow)) (do
          Run.change (·.updateElement id fun element =>
            { element with activeBranch := some branch })
          let _ ← updateFirstChild reconcile id child) fun _ => Shut gone root hollow id :=
      fun children => Returns.bind
        (change_housed fun owner => update_element_shape owner fun _ => rfl)
        fun _ => Triple.bind (update_first_child_shuts placing child)
          (fun _ => Triple.returning fun _ shut => shut) fun _ _ shut => shut
    refine Returns.bind read_housed fun switched => ?_
    split
    · refine Returns.bind (drop_first_child_places fuel narrow) fun _ => ?_
      rintro owner outcome next ⟨children, housed⟩ ran
      exact chosen children owner outcome next housed ran
    · exact chosen node.info.children
  | forEach type items =>
    exact update_for_each_shuts placing fuel program (by simp [kind, View.token, ViewKind.narrow])
      type items
  | lazyList type rejected items keepAliveKeys keepAliveLimit =>
    cases rejected with
    | some failure => exact Triple.throwing still
    | none => exact update_lazy_list_shuts fuel kind _

end Updates

/-! ### Reconciling -/

/-- An element whose lists may be opened. -/
def Opens (hollow : List (Opening Listing)) (id : ElementId) (suits : Node Listing → Prop)
    (owner : BuildOwner α) : Prop :=
  ∃ node, owner.shape.nodes id = some node ∧ suits node ∧
    ∀ opening ∈ hollow, opening.level ≤ node.depth

/-- Opening the lists of an element, editing them, and closing them. -/
theorem opened_shut {run : Building α β} {suits : Node Listing → Prop}
    (shuts : ∀ node, suits node → Triple
      (Housed gone root (⟨some (id, node), node.info.all⟩ :: hollow)) run
      fun _ => Shut gone root hollow id) :
    Triple (fun owner => Housed gone root hollow owner ∧ Opens hollow id suits owner) run
      fun _ => Housed gone root hollow := by
  rintro owner outcome next ⟨housed, node, found, suited, deep⟩ ran
  exact (shuts node suited owner outcome next (Placed.push housed found deep) ran).housed

/-- An element that is held is deep enough. -/
theorem Housed.opens {owner : BuildOwner α} {kind : ViewKind}
    (housed : Housed gone root (⟨place, id :: held⟩ :: outer) owner)
    (typed : ∀ element, owner.registry id = some element → element.viewType.1 = kind) :
    Opens (⟨place, id :: held⟩ :: outer) id (·.info.kind = kind) owner := by
  obtain ⟨element, mounted, deep⟩ := housed.held_there
  exact ⟨element.node, by simp [shape, mounted], typed element mounted, deep⟩

section Reconciling
variable [DecidableEq α] (program : Program α)

/-- The update of an element that is held and of the view's type. -/
theorem update_element_places {reconcile : Reconciler α} (placing : Placing reconcile) (fuel : Nat)
    (view : View α) :
    Returns (fun owner => Housed gone root (⟨place, id :: held⟩ :: outer) owner ∧
        Opens (⟨place, id :: held⟩ :: outer) id (·.info.kind = view.token.1) owner) (do
        Run.change (·.beginUpdate id)
        let outcome ← Run.attempt (updateView program reconcile fuel id view)
        Run.change (·.endUpdate id)
        pure (id, outcome))
        fun result => Housed gone root (⟨place, result.1 :: held⟩ :: outer) := by
  have begun : Returns (fun owner => Housed gone root (⟨place, id :: held⟩ :: outer) owner ∧
      Opens (⟨place, id :: held⟩ :: outer) id (·.info.kind = view.token.1) owner)
      (Run.change (·.beginUpdate id) : Building α Unit) fun _ owner =>
        Housed gone root (⟨place, id :: held⟩ :: outer) owner ∧
        Opens (⟨place, id :: held⟩ :: outer) id (·.info.kind = view.token.1) owner :=
    Returns.change fun owner held => by
      unfold Housed Opens
      rwa [begin_update_shape]
  have updated := opened_shut fun node kind =>
    @update_view_shuts α gone root (⟨place, id :: held⟩ :: outer) id node _ program reconcile
      placing fuel view kind
  refine Returns.bind begun fun _ => Returns.bind (Returns.attempt updated) fun outcome => ?_
  refine Returns.bind (change_housed fun owner => end_update_shape owner id) fun _ => ?_
  exact Returns.pure fun owner housed => housed

omit [DecidableEq α] in
/-- An element made for a view is held like the others. -/
theorem make_element_places (viewType : ViewKind × TypeToken) (key : Key) {owner : BuildOwner α}
    (housed : Housed gone root (⟨place, held⟩ :: outer) owner) :
    Housed gone root (⟨place, owner.nextId :: held⟩ :: outer)
      (owner.makeElement viewType key (place.map (·.1))) := by
  unfold Housed
  rw [make_element_shape owner viewType key _ (Opening.mk place held).level ?_]
  · exact Placed.make housed rfl ⟨rfl, fun _ => Nat.zero_le 1, nofun⟩
  · cases place with
    | none => rfl
    | some owned =>
      obtain ⟨above, parent⟩ := owned
      obtain ⟨element, mounted, rfl⟩ := Housed.there housed
      simp [Opening.level, mounted, Element.node]

/-- Reconciling puts the element it returns in the place of the slot's, by induction on how
deep it may go. -/
theorem reconcile_child_placing (fuel : Nat) : Placing (reconcileChild program fuel) := by
  induction fuel with
  | zero => exact fun _ _ _ _ _ _ _ _ => Returns.diverge
  | succ fuel ih =>
    intro gone root place slot view key held outer
    have mounted : Returns (Housed gone root (⟨place, held⟩ :: outer)) (do
        let id ← Run.read (·.nextId)
        Run.change (·.makeElement view.token key (place.map (·.1)))
        Run.change (·.beginUpdate id)
        let outcome ← Run.attempt (updateView program (reconcileChild program fuel) fuel id view)
        Run.change (·.endUpdate id)
        pure (id, outcome))
        fun result => Housed gone root (⟨place, result.1 :: held⟩ :: outer) := by
      refine Triple.consulting fun id => Triple.adjusting (fun owner before => ?_)
        (update_element_places program ih fuel view)
      obtain ⟨housed, rfl⟩ := before
      have made := make_element_places view.token key housed
      refine ⟨made, made.opens fun element found => ?_⟩
      cases (if_pos rfl : (owner.makeElement view.token key (place.map (·.1))).registry
        owner.nextId = _).symm.trans found
      rfl
    rw [reconcileChild]
    refine Triple.consulting fun reusable => ?_
    cases reusable with
    | some id =>
      refine Returns.weaken (update_element_places program ih fuel view) (fun owner before => ?_)
        fun _ _ housed => housed
      obtain ⟨housed, chosen⟩ := before
      obtain ⟨rfl, fit⟩ := Option.filter_eq_some_iff.mp chosen
      refine ⟨housed, Housed.opens housed fun element found => ?_⟩
      simp only [fits, found, Bool.and_eq_true, decide_eq_true_eq] at fit
      exact congrArg Prod.fst fit.1
    | none =>
      cases slot with
      | none => exact mounted.weaken (fun owner before => before.1) fun _ _ housed => housed
      | some old =>
        have freed := unmount_frees (α := α) fuel gone root place old held outer
        exact Returns.bind (freed.weaken (fun owner before => before.1) fun _ _ housed => housed)
          fun _ => mounted

end Reconciling

end Dui
