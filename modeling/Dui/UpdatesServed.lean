import Dui.UpdatesUnderway

/-! Reconciling serves the components it reaches, one function after the other: what is open
is left as it is apart from its own update, and a component whose update is over is remade if
it was due. -/
namespace Dui
open Effect BuildOwner

variable {α : Type} [DecidableEq α] {program : Program α} {start owner next : BuildOwner α}
  {id : ElementId} {frozen : Frozen α} {outer opens : List (Frozen α)} {berth : Berth}

/-! Reconciling children. -/

/-- Where a child of an element belongs whose update is under way, or the root. -/
def Under (opens : List (Frozen α)) (berth : Berth) : Prop :=
  berth = ⟨none, 0⟩ ∨ ∃ frozen ∈ opens, berth = frozen.berth

/-- A child is mounted for the view, has been reconciled since the start, and holds what the
view gives it. -/
def BuildOwner.Presents (start owner : BuildOwner α) (child : ElementId) (view : View α)
    (key : Key) : Prop :=
  start.Refreshed owner child view.token key ∧
    ∀ shown, owner.registry child = some shown → view.HeldBy shown.face

/-- The child is what reconciling the view with it has come to, for an element that is open. -/
def BuildOwner.Produced (reconcile : Reconciler α) (start built owner : BuildOwner α)
    (frozen : Frozen α) (view : View α) (child : ElementId) : Prop :=
  ∃ slot reconciled, reconcile slot view (some frozen.id) .none built =
      some (.ok (child, .ok ()), reconciled) ∧
    Standing reconciled owner frozen.berth child ∧
    start.Refreshed owner child view.token .none ∧
    ∀ shown, reconciled.registry child = some shown → view.HeldBy shown.face

/-- What a reconciler comes to for a child. -/
def Reconciled (program : Program α) (start : BuildOwner α) (opens : List (Frozen α))
    (berth : Berth) (view : View α) (key : Key) (result : ElementId × Except Failure Unit)
    (owner : BuildOwner α) : Prop :=
  result.2 = .ok () → Underway program start opens owner ∧ owner.Below berth result.1 ∧
    start.Presents owner result.1 view key

/-- A reconciler that serves what it reconciles, and leaves alone what is under way. -/
def Serving (program : Program α) (start : BuildOwner α) (reconcile : Reconciler α) : Prop :=
  ∀ opens berth slot view key, Above opens berth.level → Under opens berth →
    Yields (fun owner => Underway program start opens owner ∧
      ∀ id, slot = some id → owner.Below berth id)
      (reconcile slot view berth.parent key) (Reconciled program start opens berth view key)

omit [DecidableEq α] in
theorem children_set (id : ElementId) (children : List ElementId) :
    Yields (fun _ => True) (setChildren id children : Building α Unit) fun _ owner =>
      ∀ element, owner.registry id = some element → element.children = children := by
  refine Yields.change fun owner _ element held => ?_
  obtain ⟨_, _, ⟨_, rfl⟩ | ⟨different, _⟩⟩ := update_element_cases held
  · rfl
  · exact absurd rfl different

section Children
variable {reconcile : Reconciler α} (serving : Serving program start reconcile)
  (steady : ∀ start slot view parent key, Keeps (Later start) (reconcile slot view parent key))
  (fuel : Nat) (deep : Above outer frozen.depth) {built : BuildOwner α}

omit [DecidableEq α] in
theorem above_open (deep : Above outer frozen.depth) :
    Above (frozen :: outer) frozen.berth.level :=
  List.forall_mem_cons.mpr ⟨Nat.lt_succ_self _, fun other among =>
    Nat.lt_succ_of_lt (deep other among)⟩

/-- The element that is open, as it is now. -/
theorem BuildOwner.Underway.head (underway : Underway program start (frozen :: outer) owner) :
    ∃ element, owner.registry frozen.id = some element ∧ frozen.Shows element :=
  underway.frozen frozen List.mem_cons_self

/-- What the open element lists is below it. -/
theorem BuildOwner.Underway.listed (underway : Underway program start (frozen :: outer) owner)
    {element : Element α} (held : owner.registry frozen.id = some element) :
    ∀ child ∈ element.children ++ element.lazyKeptAliveChildren,
      owner.Below frozen.berth child := by
  obtain ⟨_, again, shows⟩ := underway.head
  cases held.symm.trans again
  rw [Frozen.berth, ← shows.depth]
  exact underway.nested frozen.id element held

/-- The open element gets something else to hold. -/
theorem BuildOwner.Underway.refit (underway : Underway program start (frozen :: outer) owner)
    (entire : frozen.entire = true) (deep : Above outer frozen.depth) (face : Face α → Face α)
    {f : Element α → Element α} (lasts : ∀ element : Element α, element.Lasts (f element))
    (faced : ∀ element : Element α, (f element).face = face element.face)
    (lists : ∀ element : Element α, (f element).children = element.children ∧
      (f element).lazyKeptAliveChildren = element.lazyKeptAliveChildren)
    (lazy : ∀ element : Element α, (f element).lazyModel.isSome →
      element.lazyModel.isSome ∨ frozen.viewType.1 = .lazyList) :
    Underway program start ({ frozen with face := face frozen.face } :: outer)
      (owner.updateElement frozen.id f) := by
  have reworks : Reworks Element.Lasts owner (owner.updateElement frozen.id f) :=
    .update lasts_unseeing lasts
  have updated : ∀ other before after, owner.registry other = some before →
      (owner.updateElement frozen.id f).registry other = some after →
      (other = frozen.id ∧ after = f before) ∨ (other ≠ frozen.id ∧ after = before) := by
    intro other before after found held
    obtain ⟨_, again, changed⟩ := update_element_cases held
    cases found.symm.trans again
    exact changed
  have apart : ∀ other ∈ outer, other.id ≠ frozen.id := by
    intro other among here
    obtain ⟨_, found, shows⟩ := underway.frozen other (.tail _ among)
    obtain ⟨_, again, same⟩ := underway.head
    rw [here] at found
    cases found.symm.trans again
    have higher := deep other among
    rw [← shows.depth, same.depth] at higher
    exact absurd higher (Nat.lt_irrefl _)
  refine underway.renew reworks.evolves (fun other among => ?_) ⟨underway.ordered.1,
      fun partly => absurd (entire.symm.trans partly) nofun, underway.ordered.2.2⟩
    (fun other among => ?_) (fun other before after found held child listed => ?_)
    (fun other before after found held modelled => ?_)
    (fun other among partly before after found held => ?_)
    fun other closed before after found held => ?_
  · rcases List.mem_cons.mp among with rfl | among
    · obtain ⟨element, held, shows⟩ := underway.head
      refine ⟨f element, ?_, (lasts element).depth.trans shows.depth,
        (lasts element).parent.trans shows.parent, (lasts element).viewType.trans shows.viewType,
        (faced element).trans (congrArg face shows.face)⟩
      rw [registry_update, if_pos rfl, held, Option.map_some]
    · obtain ⟨element, held, shows⟩ := underway.frozen other (.tail _ among)
      refine ⟨element, ?_, shows⟩
      rw [registry_update, if_neg (apart other among), held]
  · rcases List.mem_cons.mp among with rfl | among
    · exact ⟨_, .head _, rfl⟩
    · exact ⟨other, .tail _ among, rfl⟩
  · rcases updated other before after found held with ⟨_, rfl⟩ | ⟨_, rfl⟩
    · rw [(lists before).1, (lists before).2] at listed
      exact Or.inl listed
    · exact Or.inl listed
  · rcases updated other before after found held with ⟨rfl, rfl⟩ | ⟨_, rfl⟩
    · obtain ⟨_, again, shows⟩ := underway.head
      cases found.symm.trans again
      rw [shows.viewType]
      exact lazy before modelled
    · exact Or.inl modelled
  · rcases List.mem_cons.mp among with rfl | among
    · exact absurd (entire.symm.trans partly) nofun
    · rcases updated _ before after found held with ⟨here, _⟩ | ⟨_, rfl⟩
      · exact absurd here (apart other among)
      · exact ⟨rfl, rfl⟩
  · rcases updated other before after found held with ⟨here, _⟩ | ⟨_, rfl⟩
    · exact absurd here.symm (closed { frozen with face := face frozen.face } (.head _))
    · exact ⟨rfl, fun dirty => dirty, rfl, rfl⟩

theorem set_children_underway (children : List ElementId) :
    Yields (Holding program start (frozen :: outer) frozen.berth children)
      (setChildren frozen.id children : Building α Unit)
      fun _ => Underway program start (frozen :: outer) := by
  refine Yields.change fun owner ⟨underway, below⟩ => ?_
  refine underway.edit ⟨frozen, List.mem_cons_self, rfl⟩
    (fun _ => ⟨rfl, rfl, rfl, rfl, rfl, le_rfl⟩) (fun _ => ⟨rfl, rfl⟩)
    fun element held child listed => ?_
  obtain ⟨_, again, shows⟩ := underway.head
  cases held.symm.trans again
  rcases List.mem_append.mp listed with listed | listed
  · rw [shows.depth]
    exact below child listed
  · exact underway.nested frozen.id element held child (List.mem_append_right _ listed)

theorem set_kept_alive_underway (kept : List ElementId) :
    Yields (Holding program start (frozen :: outer) frozen.berth kept)
      (setKeptAlive frozen.id kept : Building α Unit)
      fun _ => Underway program start (frozen :: outer) := by
  refine Yields.change fun owner ⟨underway, below⟩ => ?_
  refine underway.edit ⟨frozen, List.mem_cons_self, rfl⟩
    (fun _ => ⟨rfl, rfl, rfl, rfl, rfl, le_rfl⟩) (fun _ => ⟨rfl, rfl⟩)
    fun element held child listed => ?_
  obtain ⟨_, again, shows⟩ := underway.head
  cases held.symm.trans again
  rcases List.mem_append.mp listed with listed | listed
  · exact underway.nested frozen.id element held child (List.mem_append_left _ listed)
  · rw [shows.depth]
    exact below child listed

/-- Listing other children leaves the child what it is. -/
theorem BuildOwner.Produced.set {view : View α} {child : ElementId}
    (produced : start.Produced reconcile built owner frozen view child)
    (underway : Underway program start (frozen :: outer) owner) (children : List ElementId) :
    start.Produced reconcile built (owner.updateElement frozen.id
      fun element => { element with children }) frozen view child := by
  obtain ⟨slot, reconciled, done, standing, refreshed, held⟩ := produced
  obtain ⟨element, mounted, shows⟩ := underway.head
  have lasts : ∀ element : Element α, element.Lasts { element with children } :=
    fun _ => ⟨rfl, rfl, rfl, rfl, rfl, le_rfl⟩
  have reworks : Reworks Element.Lasts owner
      (owner.updateElement frozen.id fun element => { element with children }) :=
    .update lasts_unseeing lasts
  exact ⟨slot, reconciled, done, standing.update mounted (Nat.lt_succ_of_le shows.depth.le) lasts
    rfl rfl, refreshed.later ((Later.refl underway.later.issued).evolve reworks.evolves), held⟩

omit [DecidableEq α] in
/-- So does unmounting others. -/
theorem produced_unmounting {view : View α} {child : ElementId} (fuel : Nat)
    (ids : List ElementId) :
    Keeps (fun owner => start.Produced reconcile built owner frozen view child)
      (Run.each (unmount fuel) ids : Building α Unit) := by
  refine Keeps.each (fun id owner outcome next produced ran => ?_) ids
  obtain ⟨slot, reconciled, done, standing, refreshed, held⟩ := produced
  have prunes := unmount_prunes owner fuel id owner outcome next
    (Reworks.refl undisturbed_unseeing owner).prunes ran
  exact ⟨slot, reconciled, done, standing.prune prunes, refreshed.later
    ((Later.refl standing.later.issued).evolve prunes.evolves), held⟩

/-- Setting the children of the open element, with others at hand. -/
theorem set_children_holding {before after : List ElementId} (children : List ElementId)
    (some' : children ⊆ before) (others : after ⊆ before) :
    Yields (Holding program start (frozen :: outer) frozen.berth before)
      (setChildren frozen.id children : Building α Unit)
      fun _ => Holding program start (frozen :: outer) frozen.berth after := by
  refine (below_stays (set_children_underway children) fun start =>
    (later_lasting program start).durable.set_children frozen.id children).weaken
      (fun owner holding => ?_) fun _ _ held => held
  exact ⟨holding.fewer others, (holding.fewer some').2⟩

theorem set_kept_alive_holding {before after : List ElementId} (kept : List ElementId)
    (some' : kept ⊆ before) (others : after ⊆ before) :
    Yields (Holding program start (frozen :: outer) frozen.berth before)
      (setKeptAlive frozen.id kept : Building α Unit)
      fun _ => Holding program start (frozen :: outer) frozen.berth after := by
  refine (below_stays (set_kept_alive_underway kept) fun start =>
    (later_lasting program start).durable.set_kept_alive frozen.id kept).weaken
      (fun owner holding => ?_) fun _ _ held => held
  exact ⟨holding.fewer others, (holding.fewer some').2⟩

/-- Reading what the open element lists. -/
theorem children_underway : Yields (Underway program start (frozen :: outer))
    (childrenOf frozen.id : Building α (List ElementId))
    (Holding program start (frozen :: outer) frozen.berth) := by
  intro owner children next underway ran
  cases ran
  refine ⟨underway, ?_⟩
  obtain ⟨element, held, _⟩ := underway.head
  simp only [held]
  exact fun child listed => underway.listed held child (List.mem_append_left _ listed)

include serving steady deep in
/-- Reconciling one child of the open element, with others at hand. -/
theorem child_holding {before : List ElementId} (slot : Option ElementId) (view : View α)
    (key : Key) (among : ∀ id, slot = some id → id ∈ before) :
    Yields (Holding program start (frozen :: outer) frozen.berth before)
      (reconcile slot view (some frozen.id) key) fun (child, outcome) owner => outcome = .ok () →
        Holding program start (frozen :: outer) frozen.berth (child :: before) owner ∧
          start.Presents owner child view key := by
  rintro owner ⟨child, outcome⟩ next ⟨underway, below⟩ ran returned
  obtain ⟨after, under, presents⟩ := serving (frozen :: outer) frozen.berth slot view key
    (above_open deep) (Or.inr ⟨frozen, .head _, rfl⟩) owner _ next
    ⟨underway, fun id same => below id (among id same)⟩ ran returned
  have onward := steady owner slot view (some frozen.id) key owner _ next
    (.refl underway.later.issued) ran
  exact ⟨⟨after, List.forall_mem_cons.mpr
    ⟨under, fun id listed => (below id listed).later onward⟩⟩, presents⟩

include serving steady deep in
theorem update_static_children_underway (views : List (View α)) : ∀ done rest,
    Yields (Holding program start (frozen :: outer) frozen.berth (done ++ rest))
      (updateStaticChildren reconcile fuel frozen.id done views rest)
      fun _ => Underway program start (frozen :: outer) := by
  induction views with
  | nil =>
    exact fun done rest => Yields.bind (unmount_holding fuel (above_open deep) (by simp) (by simp))
      fun _ => set_children_underway done
  | cons view views ih =>
    intro done rest
    refine Yields.bind (child_holding serving steady deep rest.head? view .none fun id same =>
      List.mem_append_right _ (List.mem_of_mem_head? same)) fun (child, outcome) => ?_
    cases outcome with
    | error failure => exact Yields.thrown
    | ok =>
      refine (Yields.bind (set_children_holding (done ++ child :: rest.tail) ?_ ?_)
        fun _ => ih (done ++ [child]) rest.tail).weaken (fun _ held => (held rfl).1)
          fun _ _ held => held
      · intro id listed
        simp only [List.mem_append, List.mem_cons] at listed ⊢
        rcases listed with listed | listed | listed
        · exact Or.inr (Or.inl listed)
        · exact Or.inl listed
        · exact Or.inr (Or.inr (List.mem_of_mem_tail listed))
      · intro id listed
        simp only [List.mem_append, List.mem_cons, List.not_mem_nil, or_false] at listed ⊢
        rcases listed with (listed | listed) | listed
        · exact Or.inr (Or.inl listed)
        · exact Or.inl listed
        · exact Or.inr (Or.inr (List.mem_of_mem_tail listed))

include serving steady deep in
theorem update_first_child_underway (view : View α) :
    Yields (fun owner => Underway program start (frozen :: outer) owner ∧ owner = built)
      (updateFirstChild reconcile frozen.id view) fun child owner =>
        Holding program start (frozen :: outer) frozen.berth [child] owner ∧
          start.Produced reconcile built owner frozen view child := by
  refine Yields.read fun children => ?_
  rintro owner child last ⟨⟨underway, rfl⟩, listed⟩ ran
  have below : ∀ id ∈ children, owner.Below frozen.berth id := by
    obtain ⟨element, mounted, _⟩ := underway.head
    simp only [mounted] at listed
    subst listed
    exact fun child listed => underway.listed mounted child (List.mem_append_left _ listed)
  obtain ⟨⟨made, outcome⟩, reconciled, done, ran⟩ | ⟨_, _, absurd⟩ := Run.bind_ends_iff.mp ran
  case inr => cases absurd
  cases outcome with
  | error failure =>
    cases ran
  | ok =>
    obtain ⟨holding, refreshed, held⟩ := child_holding serving steady deep children.head? view .none
      (fun id same => List.mem_of_mem_head? same) owner _ reconciled ⟨underway, below⟩ done rfl
    cases ran
    have set := @set_children_holding α _ program start frozen outer (child :: children) [child]
      (child :: children.tail) (List.cons_subset_cons child (List.tail_sublist _).subset)
      (List.cons_subset_cons child (List.nil_subset _)) reconciled () _ holding rfl
    have produced : start.Produced reconcile owner reconciled frozen view child :=
      ⟨children.head?, reconciled, done, .refl holding.1.later.issued holding.1.nested
        (holding.2 child (.head _)), refreshed, held⟩
    exact ⟨set, produced.set holding.1 _⟩

include serving steady deep in
theorem update_only_child_underway (view : View α) :
    Yields (fun owner => Underway program start (frozen :: outer) owner ∧ owner = built)
      (updateOnlyChild reconcile fuel frozen.id view) fun _ owner =>
        Underway program start (frozen :: outer) owner ∧ ∃ child,
          start.Produced reconcile built owner frozen view child ∧ ∀ element,
            owner.registry frozen.id = some element → element.children = [child] := by
  refine Yields.read fun children => ?_
  rintro owner _ last ⟨⟨underway, rfl⟩, listed⟩ ran
  have below : ∀ id ∈ children, owner.Below frozen.berth id := by
    obtain ⟨element, mounted, _⟩ := underway.head
    simp only [mounted] at listed
    subst listed
    exact fun child listed => underway.listed mounted child (List.mem_append_left _ listed)
  obtain ⟨child, middle, first, ran⟩ | ⟨_, _, absurd⟩ := Run.bind_ends_iff.mp ran
  case inr => cases absurd
  have onward := (later_lasting program owner).durable.update_first_child (steady owner) frozen.id
    view owner _ middle (.refl underway.later.issued) first
  obtain ⟨holding, produced⟩ := update_first_child_underway serving steady deep view owner child
    middle ⟨underway, rfl⟩ first
  have around : Holding program start (frozen :: outer) frozen.berth (child :: children) middle :=
    ⟨holding.1, List.forall_mem_cons.mpr
      ⟨holding.2 child (.head _), fun id listed => (below id listed).later onward⟩⟩
  obtain ⟨_, pruned, unmounted, ran⟩ | ⟨_, _, absurd⟩ := Run.bind_ends_iff.mp ran
  case inr => cases absurd
  have kept := @unmount_holding α _ program start (frozen :: outer) frozen.berth
    (child :: children) [child] children.tail.reverse fuel (above_open deep)
    (fun id listed => .tail _ (List.mem_of_mem_tail (List.mem_reverse.mp listed)))
    (List.cons_subset_cons child (List.nil_subset _)) middle _ pruned around unmounted
  have stays := produced_unmounting fuel children.tail.reverse middle _ pruned produced unmounted
  have set := set_children_underway [child] pruned () last kept ran
  refine ⟨set, child, ?_, fun element mounted => ?_⟩
  · cases ran
    exact stays.set kept.1 _
  · exact children_set frozen.id [child] pruned () last trivial ran element mounted

include deep in
theorem drop_first_child_underway : Yields (Underway program start (frozen :: outer))
    (dropFirstChild fuel frozen.id : Building α Unit)
    fun _ => Underway program start (frozen :: outer) := by
  refine Yields.bind children_underway fun children => ?_
  cases children with
  | nil => exact Yields.pure fun _ holding => holding.1
  | cons child children =>
    exact Yields.bind (unmount_one_holding fuel (above_open deep) (.head _) (List.nil_subset _))
      fun _ => set_children_underway []

include serving steady deep in
/-- The loop over the items of a `ForEach`, with everything it may reuse at hand. -/
theorem reconcile_items_underway (items : List (Key × View α)) : ∀ next previous,
    Yields (Holding program start (frozen :: outer) frozen.berth (next ++ previous))
      (reconcileItems reconcile fuel frozen.id next previous items) fun lists =>
        Holding program start (frozen :: outer) frozen.berth (lists.1 ++ lists.2) := by
  induction items with
  | nil => exact fun next previous => Yields.pure fun _ holding => holding
  | cons item items ih =>
    obtain ⟨key, view⟩ := item
    intro next previous
    refine Yields.read fun found => ?_
    refine Yields.knowing (fun owner held id (same : found = some id) =>
      List.mem_of_find?_eq_some (held.2.trans same)) fun among => ?_
    refine Yields.bind ((child_holding serving steady deep found view key fun id same =>
      List.mem_append_right next (among id same)).weaken (fun _ held => held.1)
        fun _ _ held => held) fun result => ?_
    obtain ⟨child, outcome⟩ := result
    cases outcome with
    | error failure =>
      exact Yields.skip fun _ => Yields.skip fun _ => Yields.skip fun _ => Yields.skip fun _ =>
        Yields.throw
    | ok =>
      refine (ih (next ++ [child]) _).weaken (fun owner held => (held rfl).1.fewer ?_)
        fun _ _ held => held
      intro id listed
      simp only [List.mem_append, List.mem_cons, List.not_mem_nil, or_false] at listed ⊢
      rcases listed with (listed | listed) | listed
      · exact Or.inr (Or.inl listed)
      · exact Or.inl listed
      · refine Or.inr (Or.inr ?_)
        cases found with
        | none => exact listed
        | some found => exact List.mem_of_mem_erase listed

include serving steady deep in
theorem update_for_each_underway (type : TypeToken) (items : List (Key × α)) :
    Yields (Underway program start (frozen :: outer))
      (updateForEach program reconcile fuel frozen.id type items)
      fun _ => Underway program start (frozen :: outer) := by
  refine Yields.bind (.of_keeps (underway_keeps fun _ =>
    build_items_reworks undisturbed_unseeing program type items [])) fun views => ?_
  refine Yields.bind children_underway fun previous => ?_
  refine Yields.bind (set_children_holding [] (List.nil_subset _) (List.Subset.refl previous))
    fun _ => ?_
  refine Yields.bind (reconcile_items_underway serving steady fuel deep views [] previous)
    fun lists => ?_
  exact Yields.bind (unmount_holding fuel (above_open deep) (List.subset_append_right _ _)
    (List.subset_append_left _ _)) fun _ => set_children_underway lists.1

include deep in
theorem enforce_limit_underway : Yields (Underway program start (frozen :: outer))
    (enforceLazyKeepAliveLimit fuel frozen.id : Building α Unit)
    fun _ => Underway program start (frozen :: outer) := by
  refine Yields.read fun found => ?_
  split
  · exact Yields.pure fun _ held => held.1
  · rename_i element
    split
    · exact Yields.pure fun _ held => held.1
    · refine (Yields.bind (@unmount_holding α _ program start (frozen :: outer) frozen.berth
        element.lazyKeptAliveChildren (element.lazyKeptAliveChildren.drop _) _ fuel
        (above_open deep) (List.take_subset _ _) (List.drop_subset _ _))
        fun _ => set_kept_alive_underway _).weaken (fun owner held => ⟨held.1, ?_⟩)
          fun _ _ held => held
      exact fun child listed => held.1.listed held.2 child (List.mem_append_right _ listed)

include deep in
theorem update_lazy_list_underway (entire : frozen.entire = true)
    (lazy : frozen.viewType.1 = .lazyList) (model : LazyModel α) :
    Yields (Underway program start (frozen :: outer)) (updateLazyList fuel frozen.id model)
      fun _ => Underway program start
        ({ frozen with face := { frozen.face with lazyModel := some model } } :: outer) := by
  have modelled : Yields (Underway program start (frozen :: outer))
      (Run.change (·.updateElement frozen.id fun element => { element with
        lazyModel := some model
        lazyRevision := element.lazyRevision + 1 }) : Building α Unit)
      fun _ => Underway program start
        ({ frozen with face := { frozen.face with lazyModel := some model } } :: outer) :=
    Yields.change fun owner underway => underway.refit entire deep
      ({ · with lazyModel := some model }) (fun _ => ⟨rfl, rfl, rfl, rfl, rfl, le_rfl⟩)
      (fun _ => rfl) (fun _ => ⟨rfl, rfl⟩) fun _ _ => Or.inr lazy
  refine Yields.bind modelled fun _ => Yields.read fun keptAlive => Yields.read fun keeps => ?_
  refine Yields.bind ((@unmount_holding α _ program start
    ({ frozen with face := { frozen.face with lazyModel := some model } } :: outer) frozen.berth
    keptAlive (keptAlive.filter keeps) (keptAlive.filter (!keeps ·)) fuel (above_open deep)
    (List.filter_subset_self ..) (List.filter_subset_self ..)).weaken (fun owner held => ?_)
    fun _ _ held => held) fun _ => ?_
  · obtain ⟨⟨underway, listed⟩, _⟩ := held
    refine ⟨underway, ?_⟩
    obtain ⟨element, mounted, _⟩ := underway.head
    simp only [mounted] at listed
    subst listed
    exact fun child listed => underway.listed mounted child (List.mem_append_right _ listed)
  · exact Yields.bind (set_kept_alive_underway _) fun _ => enforce_limit_underway fuel deep

omit serving steady deep in
/-- What runs in a build scope leaves what it has come to when the scope is left. -/
theorem with_scope_underway {β : Type} {run : Building α β} {post : β → BuildOwner α → Prop}
    (inner : Yields (fun owner => Underway program start opens owner ∧ owner.active = some id)
      run post) (left : ∀ value owner active, post value owner →
        post value { owner with active }) :
    Yields (Underway program start opens) (withScope id run) post := by
  have entered : Yields (Underway program start opens)
      (Run.change (fun owner => { owner with active := some id }) : Building α Unit)
      fun _ owner => Underway program start opens owner ∧ owner.active = some id :=
    Yields.change fun owner underway =>
      ⟨underway.rework (.of_same undisturbed_unseeing rfl rfl), rfl⟩
  refine Yields.read fun previous => Yields.bind
    (entered.weaken (fun _ held => held.1) fun _ _ held => held) fun _ =>
      Yields.bind (Yields.attempt inner) fun outcome => ?_
  cases outcome with
  | error failure => exact Yields.skip fun _ => Yields.throw
  | ok value =>
    have restored : Yields (post value)
        (Run.change (fun owner => { owner with active := previous }) : Building α Unit)
        fun _ => post value := Yields.change fun owner held => left value owner previous held
    exact Yields.bind (restored.weaken (fun _ held => held value rfl) fun _ _ held => held)
      fun _ => Yields.pure fun _ held => held

end Children

/-! Updating the element that is open. -/

section Updates
variable (fuel : Nat) (serving : Serving program start (reconcileChild program fuel))
  (deep : Above outer frozen.depth)

theorem reconcile_later (fuel : Nat) : ∀ (start : BuildOwner α) slot view parent key,
    Keeps start.Later (reconcileChild program fuel slot view parent key) :=
  fun start => (later_lasting program start).durable.reconcile_child fuel

/-- The open element is rebuilt. -/
def Renewed (program : Program α) (start : BuildOwner α) (frozen : Frozen α)
    (outer : List (Frozen α)) (owner : BuildOwner α) : Prop :=
  Underway program start (frozen :: outer) owner ∧ ∀ element,
    owner.registry frozen.id = some element → start.Remade program owner frozen.id element

/-- A change that leaves the elements alone leaves the open element rebuilt. -/
theorem Renewed.same (renewed : Renewed program start frozen outer owner)
    (registry : next.registry = owner.registry) (nextId : next.nextId = owner.nextId) :
    Renewed program start frozen outer next := by
  obtain ⟨underway, remade⟩ := renewed
  have reworks : Reworks Element.Undisturbed owner next :=
    .of_same undisturbed_unseeing registry nextId
  refine ⟨underway.rework reworks, fun element held => ?_⟩
  rw [registry] at held
  exact (remade element held).later ((Later.refl underway.later.issued).evolve
    reworks.prunes.evolves) (.refl element) rfl rfl fun _ _ standing =>
      standing.prune reworks.prunes

include serving deep in
/-- A rebuild that returns has rebuilt the open element, whose value it reads. -/
theorem rebuild_underway : Yields (Underway program start (frozen :: outer))
    (rebuild program (reconcileChild program fuel) fuel frozen.id)
    fun _ => Renewed program start frozen outer := by
  have cleared : Yields (Underway program start (frozen :: outer))
      (Run.change (·.clearDependencies frozen.id) : Building α Unit)
      fun _ => Underway program start (frozen :: outer) :=
    Yields.change fun owner underway =>
      underway.rework (clear_reworks undisturbed_unseeing owner frozen.id)
  refine Yields.bind cleared fun _ => with_scope_underway ?_ fun _ owner active renewed =>
    renewed.same rfl rfl
  refine Yields.read fun found => ?_
  cases found with
  | none => exact Yields.diverge
  | some found =>
    obtain ⟨type, value⟩ := found
    refine Yields.knowing (fun owner held => ?_) fun
      (reads : type = frozen.viewType.2 ∧ frozen.face.descriptor = some value) => ?_
    · obtain ⟨⟨underway, _⟩, seen⟩ := held
      obtain ⟨element, mounted, shows⟩ := underway.head
      rw [mounted, Option.bind_some] at seen
      obtain ⟨last, holds, same⟩ := Option.map_eq_some_iff.mp seen
      cases same
      exact ⟨congrArg Prod.snd shows.viewType,
        (congrArg Face.descriptor shows.face).symm.trans holds⟩
    obtain ⟨rfl, holds⟩ := reads
    have built : Yields (fun owner => Underway program start (frozen :: outer) owner ∧
        owner.active = some frozen.id) (runBuild (program.build frozen.viewType.2 value))
        fun _ => Underway program start (frozen :: outer) :=
      (Yields.of_keeps (underway_keeps fun _ => run_build_reworks undisturbed_unseeing _)).weaken
        (fun _ held => held.1) fun _ _ held => held
    refine Yields.bind (built.traced.weaken (fun _ held => held.1) fun _ _ held => held)
      fun view => ?_
    rintro built result last ⟨underway, during, ⟨early, active⟩, ran⟩ updated
    obtain ⟨after, child, ⟨slot, reconciled, done, standing, refreshed, held⟩, only⟩ :=
      update_only_child_underway serving (reconcile_later fuel) fuel deep view built result last
        ⟨underway, rfl⟩ updated
    refine ⟨after, fun element mounted => ?_⟩
    obtain ⟨_, again, shows⟩ := after.head
    cases mounted.symm.trans again
    refine ⟨⟨frozen.viewType.2, value, during, view, built, fuel, slot, child, reconciled,
      early.later, active, ran, done⟩, value, congrArg Prod.snd shows.viewType,
      (congrArg Face.descriptor shows.face).trans holds, .refl, only element mounted, refreshed,
      held, ?_⟩
    rw [shows.depth]
    exact standing

/-- The update of the open element is over. -/
theorem BuildOwner.Underway.close (underway : Underway program start (frozen :: outer) owner)
    (served : (∀ other ∈ outer, other.id ≠ frozen.id) → start.Served program owner frozen.id) :
    Underway program start outer owner := by
  refine ⟨underway.issued, underway.later, underway.nested, underway.lazy,
    fun other among => underway.frozen other (.tail _ among), underway.ordered.2.2,
    fun id closed => ?_⟩
  by_cases here : frozen.id = id
  · subst here
    exact served closed
  · exact underway.served id (List.forall_mem_cons.mpr ⟨here, closed⟩)

/-- The open element was dirty, or is of a type that is not compared, or has been rebuilt
before; or it was not due. -/
def Indebted (program : Program α) (start : BuildOwner α) (frozen : Frozen α)
    (outer : List (Frozen α)) (owner : BuildOwner α) : Prop :=
  (∀ other ∈ outer, other.id ≠ frozen.id) → ∀ before element,
    start.registry frozen.id = some before → owner.registry frozen.id = some element →
    before.Due program →
    element.rebuildingDirty = true ∨ program.comparable frozen.viewType.2 = false ∨
      start.Remade program owner frozen.id element

/-- A value that is equal to the one an element was rebuilt with does not undo that. -/
theorem BuildOwner.Remade.describe {element : Element α} {value : α}
    (issued : owner.Issued) (mounted : owner.registry id = some element)
    (remade : start.Remade program owner id element)
    (equal : element.descriptor.any (program.same element.viewType.2 · value) = true) :
    start.Remade program (owner.updateElement id fun element =>
      { element with descriptor := some value }) id { element with descriptor := some value } := by
  have lasts : ∀ element : Element α, element.Lasts { element with descriptor := some value } :=
    fun _ => ⟨rfl, rfl, rfl, rfl, rfl, le_rfl⟩
  have reworks : Reworks Element.Lasts owner (owner.updateElement id fun element =>
      { element with descriptor := some value }) := .update lasts_unseeing lasts
  obtain ⟨build, last, remade⟩ := remade
  rw [remade.descriptor, Option.any_some, remade.type] at equal
  exact ⟨build, value, remade.type, rfl, remade.equal.tail equal, remade.children,
    remade.refreshed.later ((Later.refl issued).evolve reworks.evolves), remade.held,
    remade.standing.update mounted (Nat.lt_succ_self _) lasts rfl rfl⟩

/-- What the open element holds when its update is over. -/
def Filled (program : Program α) (start : BuildOwner α) (outer : List (Frozen α)) (id : ElementId)
    (view : View α) (owner : BuildOwner α) : Prop :=
  Underway program start outer owner ∧
    ∀ shown, owner.registry id = some shown → view.HeldBy shown.face

theorem BuildOwner.Underway.filled {view : View α}
    (underway : Underway program start (frozen :: outer) owner) (held : view.HeldBy frozen.face)
    (served : (∀ other ∈ outer, other.id ≠ frozen.id) → start.Served program owner frozen.id) :
    Filled program start outer frozen.id view owner := by
  refine ⟨underway.close served, fun shown mounted => ?_⟩
  obtain ⟨_, again, shows⟩ := underway.head
  cases mounted.symm.trans again
  rw [shows.face]
  exact held

include serving deep in
theorem update_component_underway (entire : frozen.entire = true) (type : TypeToken)
    (descriptor : α) (typed : frozen.viewType = (.component, type)) :
    Yields (fun owner => Underway program start (frozen :: outer) owner ∧
        Indebted program start frozen outer owner)
      (updateComponent program (reconcileChild program fuel) fuel frozen.id type descriptor)
      fun _ => Filled program start outer frozen.id (.component type descriptor) := by
  refine Yields.read fun equivalent => ?_
  have described : Yields (fun owner => (Underway program start (frozen :: outer) owner ∧
        Indebted program start frozen outer owner) ∧
        (program.comparable type && (owner.registry frozen.id).any fun element =>
          element.descriptor.any (program.same type · descriptor)) = equivalent)
      (Run.change (·.updateElement frozen.id fun element =>
        { element with descriptor := some descriptor }) : Building α Unit) fun _ owner =>
      Underway program start
          ({ frozen with face := { frozen.face with descriptor := some descriptor } } :: outer)
          owner ∧
        (equivalent = true → program.comparable type = true ∧
          ((∀ other ∈ outer, other.id ≠ frozen.id) → ∀ before element,
            start.registry frozen.id = some before → owner.registry frozen.id = some element →
            before.Due program → element.rebuildingDirty = true ∨
              start.Remade program owner frozen.id element)) := by
    refine Yields.change fun owner ⟨⟨underway, indebted⟩, same⟩ => ?_
    refine ⟨underway.refit entire deep ({ · with descriptor := some descriptor })
      (fun _ => ⟨rfl, rfl, rfl, rfl, rfl, le_rfl⟩) (fun _ => rfl) (fun _ => ⟨rfl, rfl⟩)
      fun _ modelled => Or.inl modelled, fun equal => ?_⟩
    rw [equal, Bool.and_eq_true_iff] at same
    refine ⟨same.1, fun closed before after stood held due => ?_⟩
    obtain ⟨element, found, ⟨_, rfl⟩ | ⟨different, _⟩⟩ := update_element_cases held
    · obtain ⟨_, again, shows⟩ := underway.head
      cases found.symm.trans again
      rcases indebted closed before element stood found due with dirty | incomparable | remade
      · exact Or.inl dirty
      · rw [typed, same.1] at incomparable
        cases incomparable
      · have compared := same.2
        rw [found, Option.any_some, show type = element.viewType.2 by rw [shows.viewType, typed]]
          at compared
        exact Or.inr (remade.describe underway.later.issued found compared)
    · exact absurd rfl different
  refine Yields.bind described fun _ => Yields.read fun rebuildingDirty => ?_
  split
  · rename_i skipped
    refine Yields.pure fun owner ⟨⟨underway, equal⟩, seen⟩ => ?_
    refine underway.filled rfl fun closed before after stood held due => Or.inr ?_
    rcases (equal skipped.1).2 closed before after stood held due with dirty | remade
    · rw [held, Option.any_some] at seen
      exact absurd (seen.symm.trans dirty) skipped.2
    · exact remade
  · have armed : Yields (Underway program start
          ({ frozen with face := { frozen.face with descriptor := some descriptor } } :: outer))
        (Run.change (·.updateElement frozen.id fun element => { element with rebuild := true }) :
          Building α Unit)
        fun _ => Underway program start ({ frozen with face := { frozen.face with
          descriptor := some descriptor
          rebuild := true } } :: outer) :=
      Yields.change fun owner underway => underway.refit entire deep ({ · with rebuild := true })
        (fun _ => ⟨rfl, rfl, rfl, rfl, rfl, le_rfl⟩) (fun _ => rfl) (fun _ => ⟨rfl, rfl⟩)
        fun _ modelled => Or.inl modelled
    refine Yields.bind (armed.weaken (fun _ held => held.1.1) fun _ _ held => held) fun _ => ?_
    refine (@rebuild_underway α _ program start { frozen with face := { frozen.face with
      descriptor := some descriptor
      rebuild := true } } outer fuel serving deep).weaken (fun _ held => held)
        fun _ owner renewed => ?_
    exact renewed.1.filled rfl fun _ _ after _ held _ => Or.inr (renewed.2 after held)

include serving deep in
theorem update_view_underway (entire : frozen.entire = true) (view : View α)
    (typed : frozen.viewType = view.token) :
    Yields (fun owner => Underway program start (frozen :: outer) owner ∧
        Indebted program start frozen outer owner)
      (updateView program (reconcileChild program fuel) fuel frozen.id view)
      fun _ => Filled program start outer frozen.id view := by
  have plain : ∀ {run : Building α Unit} (face : Face α), view.token.1 ≠ .component →
      view.HeldBy face → Yields (Underway program start (frozen :: outer)) run
        (fun _ => Underway program start ({ frozen with face } :: outer)) →
      Yields (fun owner => Underway program start (frozen :: outer) owner ∧
        Indebted program start frozen outer owner) run
        fun _ => Filled program start outer frozen.id view := by
    intro run face other held yields
    refine yields.weaken (fun _ held => held.1) fun _ owner underway =>
      underway.filled held fun _ before after stood held due => ?_
    obtain ⟨_, again, shows⟩ := underway.head
    cases held.symm.trans again
    have early : frozen.id < start.nextId := underway.issued frozen.id (by rw [stood]; rfl)
    obtain ⟨earlier, found, lasts⟩ := underway.later.elements frozen.id after early held
    cases stood.symm.trans found
    refine absurd ?_ other
    rw [← typed, ← shows.viewType, lasts.viewType]
    exact due.1
  have thrown : ∀ {failure : Failure}, Yields (fun owner =>
      Underway program start (frozen :: outer) owner ∧ Indebted program start frozen outer owner)
      (Run.throw failure : Building α Unit) fun _ => Filled program start outer frozen.id view :=
    Yields.throw
  have first : ∀ {face : Face α} (child : View α), Yields
      (Underway program start ({ frozen with face } :: outer)) (do
        let _ ← updateFirstChild (reconcileChild program fuel) frozen.id child)
      fun _ => Underway program start ({ frozen with face } :: outer) := by
    intro face child
    refine Yields.bind (fun owner value last underway ran => ?_ : Yields _ _
      fun _ => Underway program start ({ frozen with face } :: outer))
      fun _ => Yields.pure fun _ held => held
    exact (@update_first_child_underway α _ program start { frozen with face } outer _ serving
      (reconcile_later fuel) deep owner child owner value last ⟨underway, rfl⟩ ran).1.1
  cases view with
  | component type descriptor =>
    exact update_component_underway fuel serving deep entire type descriptor typed
  | leaf type rejected value =>
    have shown : Yields (Underway program start (frozen :: outer))
        (Run.change (·.updateElement frozen.id fun element =>
          { element with debugValue := some value }) : Building α Unit)
        fun _ => Underway program start
          ({ frozen with face := { frozen.face with debugValue := some value } } :: outer) :=
      Yields.change fun owner underway => underway.refit entire deep
        ({ · with debugValue := some value }) (fun _ => ⟨rfl, rfl, rfl, rfl, rfl, le_rfl⟩)
        (fun _ => rfl) (fun _ => ⟨rfl, rfl⟩) fun _ modelled => Or.inl modelled
    refine plain { frozen.face with debugValue := some value } nofun rfl
      (Yields.bind shown fun _ => ?_)
    cases rejected with
    | some failure => exact Yields.throw
    | none =>
      refine Yields.bind children_underway fun children => Yields.bind ?_ fun _ =>
        @set_children_underway α _ program start { frozen with face := { frozen.face with
          debugValue := some value } } outer []
      exact unmount_holding fuel (above_open deep) (fun _ listed => List.mem_reverse.mp listed)
        (List.nil_subset _)
  | group type rejected views =>
    cases rejected with
    | some failure => exact thrown
    | none =>
      exact plain frozen.face nofun trivial (Yields.bind children_underway fun children =>
        update_static_children_underway serving (reconcile_later fuel) fuel deep views [] children)
  | single type rejected child =>
    cases rejected with
    | some failure => exact thrown
    | none => exact plain frozen.face nofun trivial (first child)
  | environment type values child =>
    refine plain frozen.face nofun trivial (Yields.bind (Yields.of_keeps
      (Keeps.each (fun value => ?_) _)) fun _ => fun owner result last underway ran => ?_)
    · exact Keeps.change fun owner underway =>
        underway.rework (set_environment_reworks undisturbed_unseeing program owner frozen.id _ _)
    · exact (update_only_child_underway serving (reconcile_later fuel) fuel deep child owner result
        last ⟨underway, rfl⟩ ran).1
  | optional type child =>
    cases child with
    | none => exact plain frozen.face nofun trivial (drop_first_child_underway fuel deep)
    | some child => exact plain frozen.face nofun trivial (first child)
  | choice type branch child =>
    have chosen : Yields (Underway program start (frozen :: outer))
        (Run.change (·.updateElement frozen.id fun element =>
          { element with activeBranch := some branch }) : Building α Unit)
        fun _ => Underway program start
          ({ frozen with face := { frozen.face with activeBranch := some branch } } :: outer) :=
      Yields.change fun owner underway => underway.refit entire deep
        ({ · with activeBranch := some branch }) (fun _ => ⟨rfl, rfl, rfl, rfl, rfl, le_rfl⟩)
        (fun _ => rfl) (fun _ => ⟨rfl, rfl⟩) fun _ modelled => Or.inl modelled
    refine plain { frozen.face with activeBranch := some branch } nofun rfl
      (Yields.read fun switched => ?_)
    have placed := Yields.bind chosen fun _ => first child
    cases switched with
    | true => exact Yields.bind ((drop_first_child_underway fuel deep).weaken
        (fun _ held => held.1) fun _ _ held => held) fun _ => placed
    | false => exact placed.weaken (fun _ held => held.1) fun _ _ held => held
  | forEach type items =>
    exact plain frozen.face nofun trivial
      (update_for_each_underway serving (reconcile_later fuel) fuel deep type items)
  | lazyList type rejected items keepAliveKeys keepAliveLimit =>
    cases rejected with
    | some failure => exact thrown
    | none =>
      exact plain { frozen.face with lazyModel := some ⟨items, keepAliveKeys, keepAliveLimit⟩ }
        nofun rfl (update_lazy_list_underway fuel deep entire (congrArg Prod.fst typed) _)

end Updates

/-! Reconciling an element. -/

/-- An element is mounted for a view under this key, where it belongs. -/
def BuildOwner.Mounted (owner : BuildOwner α) (berth : Berth) (type : ViewKind × TypeToken)
    (key : Key) (id : ElementId) : Prop :=
  ∃ element, owner.registry id = some element ∧ element.viewType = type ∧ element.key = key ∧
    element.parent = berth.parent ∧ berth.level ≤ element.depth

/-- A new element is closed, and new. -/
theorem BuildOwner.Underway.make (underway : Underway program start opens owner)
    (under : Under opens berth) (type : ViewKind × TypeToken) (key : Key) :
    Underway program start opens (owner.makeElement type key berth.parent) ∧
      (owner.makeElement type key berth.parent).Mounted berth type key owner.nextId := by
  have kept : ∀ {id element}, owner.registry id = some element →
      (owner.makeElement type key berth.parent).registry id = some element := by
    intro id element held
    have different : id ≠ owner.nextId :=
      (underway.later.issued id (by rw [held]; rfl)).ne
    exact (if_neg different).trans held
  have made : ∀ {id element}, (owner.makeElement type key berth.parent).registry id = some element →
      (id = owner.nextId ∧ element.children = [] ∧ element.lazyKeptAliveChildren = [] ∧
        element.lazyModel = none) ∨ owner.registry id = some element := by
    intro id element held
    simp only [makeElement] at held
    split at held
    case isTrue same =>
      cases held
      exact Or.inl ⟨same, rfl, rfl, rfl⟩
    case isFalse => exact Or.inr held
  have onward : owner.Later (owner.makeElement type key berth.parent) :=
    (Later.refl underway.later.issued).makeElement type key berth.parent
  refine ⟨⟨underway.issued, underway.later.makeElement type key berth.parent,
    fun id element held child listed => ?_, fun id element held modelled => ?_,
    fun frozen among => ?_, underway.ordered, fun id closed before after stood held due => ?_⟩, _,
    if_pos rfl, rfl, rfl, rfl, ?_⟩
  · rcases made held with ⟨_, children, keptAlive, _⟩ | held
    · rw [children, keptAlive] at listed
      cases listed
    · exact (underway.nested id element held child listed).later onward
  · rcases made held with ⟨_, _, _, model⟩ | held
    · rw [model] at modelled
      cases modelled
    · exact underway.lazy id element held modelled
  · obtain ⟨element, held, same⟩ := underway.frozen frozen among
    exact ⟨element, kept held, same⟩
  · have early : id < start.nextId := underway.issued id (by rw [stood]; rfl)
    rcases made held with ⟨rfl, _⟩ | found
    · exact absurd early (not_lt.mpr underway.later.nextId)
    · refine (underway.served id closed before after stood found due).imp_right fun remade =>
        remade.later onward (.refl after) rfl rfl fun reconciled child standing =>
          standing.step onward fun inner _ before after found held => ?_
      cases (kept found).symm.trans held
      exact .refl before
  · rcases under with rfl | ⟨frozen, among, rfl⟩
    · exact Nat.zero_le _
    · obtain ⟨element, held, shows⟩ := underway.frozen frozen among
      simp only [Frozen.berth, Option.bind_some, held, shows.depth]
      exact le_rfl

/-- The update of an element begins, which keeps its children and what it holds. -/
theorem BuildOwner.Underway.enter (underway : Underway program start opens owner)
    {element : Element α} (mounted : owner.registry id = some element)
    (deep : Above opens element.depth) {entire : Bool}
    (ordered : InTurn (element.frozen id entire :: opens)) {f : Element α → Element α}
    (registry : next.registry = (owner.updateElement id f).registry)
    (nextId : next.nextId = owner.nextId) (lasts : ∀ element : Element α, element.Lasts (f element))
    (kept : ∀ element : Element α, (f element).children = element.children ∧
      (f element).lazyKeptAliveChildren = element.lazyKeptAliveChildren ∧
      (f element).face = element.face)
    (partly : entire = false → ∀ element : Element α,
      (f element).updateCount = element.updateCount) :
    Underway program start (element.frozen id entire :: opens) next := by
  have changed : ∀ other before after, owner.registry other = some before →
      next.registry other = some after →
      (other = id ∧ after = f before) ∨ (other ≠ id ∧ after = before) := by
    intro other before after found held
    rw [registry] at held
    obtain ⟨_, again, changed⟩ := update_element_cases held
    cases found.symm.trans again
    exact changed
  have apart : ∀ frozen ∈ opens, frozen.id ≠ id := by
    rintro frozen among rfl
    obtain ⟨_, again, shows⟩ := underway.frozen frozen among
    cases mounted.symm.trans again
    have higher := deep frozen among
    rw [← shows.depth] at higher
    exact absurd higher (Nat.lt_irrefl _)
  have reworks : Reworks Element.Lasts owner next :=
    .trans lasts_unseeing (.update lasts_unseeing lasts) (.of_same lasts_unseeing registry nextId)
  refine underway.renew reworks.evolves (fun frozen among => ?_) ordered
    (fun frozen among => ⟨frozen, .tail _ among, rfl⟩)
    (fun other before after found held child listed => Or.inl ?_)
    (fun other before after found held modelled => Or.inl ?_)
    (fun frozen among sheltered before after found held => ?_)
    fun other closed before after found held => ?_
  · rw [registry, registry_update]
    rcases List.mem_cons.mp among with rfl | among
    · refine ⟨f element, ?_, (lasts element).depth, (lasts element).parent,
        (lasts element).viewType, (kept element).2.2⟩
      rw [Element.frozen, if_pos rfl, mounted, Option.map_some]
    · rw [if_neg (apart frozen among)]
      exact underway.frozen frozen among
  · rcases changed other before after found held with ⟨_, rfl⟩ | ⟨_, rfl⟩
    · rw [(kept before).1, (kept before).2.1] at listed
      exact listed
    · exact listed
  · rcases changed other before after found held with ⟨_, rfl⟩ | ⟨_, rfl⟩
    · rwa [show (f before).lazyModel = before.lazyModel from
        congrArg Face.lazyModel (kept before).2.2] at modelled
    · exact modelled
  · rcases changed _ before after found held with ⟨here, rfl⟩ | ⟨_, rfl⟩
    · rcases List.mem_cons.mp among with rfl | among
      · exact ⟨partly sheltered before, (kept before).2.2⟩
      · exact absurd here (apart frozen among)
    · exact ⟨rfl, rfl⟩
  · rcases changed other before after found held with ⟨rfl, _⟩ | ⟨_, rfl⟩
    · exact absurd rfl (closed _ (.head _))
    · exact ⟨rfl, fun dirty => dirty, rfl, rfl⟩

/-- Reconciling an element begins. -/
theorem BuildOwner.Underway.begin (underway : Underway program start opens owner)
    {element : Element α} (mounted : owner.registry id = some element)
    (deep : Above opens element.depth) {level : Nat} (under : Under opens ⟨element.parent, level⟩) :
    Underway program start (element.frozen id true :: opens) (owner.beginUpdate id) ∧
      Indebted program start (element.frozen id true) opens (owner.beginUpdate id) ∧
      start.Refreshed (owner.beginUpdate id) id element.viewType element.key := by
  have lasts : ∀ element : Element α, element.Lasts { element with
      updateCount := element.updateCount + 1
      rebuildingDirty := element.dirty
      dirty := false } := fun _ => ⟨rfl, rfl, rfl, rfl, rfl, Nat.le_succ _⟩
  have ordered : InTurn (element.frozen id true :: opens) := by
    refine ⟨fun _ => ?_, nofun, underway.ordered⟩
    rcases under with same | ⟨other, among, same⟩
    · exact Or.inl (congrArg Berth.parent same)
    · exact Or.inr ⟨other, among, congrArg Berth.parent same⟩
  have began : Underway program start (element.frozen id true :: opens) (owner.beginUpdate id) :=
    underway.enter mounted deep ordered rfl rfl lasts (fun _ => ⟨rfl, rfl, rfl⟩) nofun
  have updated : (owner.beginUpdate id).registry id = some { element with
      updateCount := element.updateCount + 1
      rebuildingDirty := element.dirty
      dirty := false } := by
    simp only [beginUpdate, updateElement, if_pos, mounted, Option.map_some]
  -- The element as it was at the start.
  have stands : ∀ earlier, start.registry id = some earlier → earlier.Lasts element := by
    intro earlier stood
    obtain ⟨_, again, lasts⟩ := underway.later.elements id element
      (underway.issued id (by rw [stood]; rfl)) mounted
    cases stood.symm.trans again
    exact lasts
  refine ⟨began, fun closed before after stood held due => ?_,
    underway.later.issued id (by rw [mounted]; rfl), fun after held => ?_⟩
  · cases updated.symm.trans held
    rcases underway.served id closed before element stood mounted due with ⟨_, kept⟩ | remade
    · rcases due.2 with incomparable | dirty
      · rw [← (stands before stood).viewType] at incomparable
        exact Or.inr (Or.inl incomparable)
      · exact Or.inl (kept dirty)
    · refine Or.inr (Or.inr (remade.later ?_ (lasts element) rfl rfl
        fun reconciled child standing =>
          standing.update mounted (Nat.lt_succ_self _) lasts rfl rfl))
      have reworks : Reworks Element.Lasts owner (owner.beginUpdate id) :=
        .trans lasts_unseeing (.update lasts_unseeing lasts) (.of_same lasts_unseeing rfl rfl)
      exact (Later.refl underway.later.issued).evolve reworks.evolves
  · cases updated.symm.trans held
    exact ⟨rfl, rfl, fun earlier stood => Nat.lt_succ_of_le (stands earlier stood).updateCount⟩

/-- What is done for the element that is chosen serves it. -/
theorem update_serving {fuel : Nat} (serving : Serving program start (reconcileChild program fuel))
    (above : Above opens berth.level) (under : Under opens berth) (view : View α) (key : Key)
    (id : ElementId) :
    Yields (fun owner => Underway program start opens owner ∧ owner.Mounted berth view.token key id)
      (do
        Run.change (·.beginUpdate id)
        let outcome ← Run.attempt (updateView program (reconcileChild program fuel) fuel id view)
        Run.change (·.endUpdate id)
        pure (id, outcome)) (Reconciled program start opens berth view key) := by
  rintro owner result last ⟨underway, element, mounted, typed, keyed, parent, depth⟩ ran
  have deep : Above opens element.depth := fun frozen among => (above frozen among).trans_le depth
  have own : Under opens ⟨element.parent, berth.level⟩ := by
    rw [parent]
    exact under
  obtain ⟨began, indebted, refreshed⟩ := underway.begin mounted deep own
  rw [typed, keyed] at refreshed
  have updated := later_stays (fun _ held => held.1.later.issued)
    (fun owner next (later : owner.Later next) (held : owner.Below berth id ∧
      start.Refreshed owner id view.token key) => ⟨held.1.later later, held.2.later later⟩)
    (fun start => (later_lasting program start).durable.update_view (reconcile_later fuel start)
      fuel id view)
    (@update_view_underway α _ program start (element.frozen id true) opens fuel serving deep rfl
      view typed)
  have ended : Yields (fun owner => Filled program start opens id view owner ∧
        owner.Below berth id ∧ start.Refreshed owner id view.token key)
      (Run.change (·.endUpdate id) : Building α Unit) fun _ owner =>
        Underway program start opens owner ∧ owner.Below berth id ∧
          start.Presents owner id view key := by
    refine Yields.change fun owner ⟨⟨underway, filled⟩, below, refreshed⟩ => ?_
    have reworks : Reworks Element.Undisturbed owner (owner.endUpdate id) :=
      .update undisturbed_unseeing fun _ =>
        ⟨⟨rfl, rfl, rfl, rfl, rfl, le_rfl⟩, rfl, fun dirty => dirty, rfl, rfl, rfl⟩
    have onward : owner.Later (owner.endUpdate id) :=
      (Later.refl underway.later.issued).evolve reworks.prunes.evolves
    refine ⟨underway.rework reworks, below.later onward, refreshed.later onward,
      fun shown held => ?_⟩
    obtain ⟨before, found, kept⟩ := reworks.prunes.elements id shown held
    rw [kept.face]
    exact filled before found
  have whole : Yields (fun owner => (Underway program start (element.frozen id true :: opens)
        owner ∧ Indebted program start (element.frozen id true) opens owner) ∧
        owner.Below berth id ∧ start.Refreshed owner id view.token key)
      (do
        let outcome ← Run.attempt (updateView program (reconcileChild program fuel) fuel id view)
        Run.change (·.endUpdate id)
        pure (id, outcome)) (Reconciled program start opens berth view key) := by
    refine Yields.bind (Yields.attempt updated) fun outcome => ?_
    cases outcome with
    | error failure => exact Yields.skip fun _ => Yields.pure fun _ _ => nofun
    | ok value =>
      exact Yields.bind (ended.weaken (fun _ held => held value rfl) fun _ _ held => held)
        fun _ => Yields.pure fun _ held _ => held
  have below : (owner.beginUpdate id).Below berth id := by
    refine ⟨refreshed.1, fun after held => ?_⟩
    obtain ⟨_, again, shows⟩ := began.head
    cases held.symm.trans again
    exact ⟨shows.parent.trans parent, depth.trans (le_of_eq shows.depth.symm)⟩
  exact whole (owner.beginUpdate id) result last ⟨⟨began, indebted⟩, below, refreshed⟩ ran

/-- Reconciling serves what it reconciles, by induction on how deep it goes. -/
theorem reconcile_child_serving (fuel : Nat) :
    Serving program start (reconcileChild program fuel) := by
  induction fuel with
  | zero => exact fun _ _ _ _ _ _ _ => Yields.diverge
  | succ fuel ih =>
    intro opens berth slot view key above under
    have fresh : Yields (Underway program start opens) (do
          let id ← Run.read (·.nextId)
          Run.change (·.makeElement view.token key berth.parent)
          let id ← pure id
          Run.change (·.beginUpdate id)
          let outcome ← Run.attempt (updateView program (reconcileChild program fuel) fuel id view)
          Run.change (·.endUpdate id)
          pure (id, outcome)) (Reconciled program start opens berth view key) := by
      refine Yields.read fun id => Yields.bind ?_ fun _ =>
        update_serving ih above under view key id
      refine Yields.change fun owner ⟨underway, next⟩ => ?_
      subst next
      exact underway.make under view.token key
    refine Yields.read fun reusable => ?_
    cases reusable with
    | some id =>
      refine (update_serving ih above under view key id).weaken (fun owner held => ?_)
        fun _ _ held => held
      obtain ⟨⟨underway, below⟩, fitting⟩ := held
      obtain ⟨same, fitting⟩ := Option.filter_eq_some_iff.mp fitting
      simp only [fits] at fitting
      split at fitting
      · cases fitting
      · rename_i element mounted
        obtain ⟨typed, keyed⟩ := Bool.and_eq_true_iff.mp fitting
        exact ⟨underway, element, mounted, of_decide_eq_true typed, of_decide_eq_true keyed,
          (below id same).2 element mounted⟩
    | none =>
      cases slot with
      | none => exact fresh.weaken (fun _ held => held.1.1) fun _ _ held => held
      | some old =>
        exact Yields.bind ((unmount_underway fuel berth old above).weaken
          (fun owner held => ⟨held.1.1, held.1.2 old rfl⟩) fun _ _ held => held) fun _ => fresh

end Dui
