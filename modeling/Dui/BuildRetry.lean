import Dui.UpdatesServed

/-! Whether a build that has failed is tried again. A call that returns has rebuilt every
component it has reconciled, unless it has left one alone for being equal to what the
element already holds and not dirty; that the build of it had failed does not count. -/
namespace Dui
open Effect BuildOwner

variable {α : Type} [DecidableEq α] {program : Program α} {start owner next : BuildOwner α}
  {id : ElementId} {frozen : Frozen α} {fuel : Nat}

/-! Flushing. -/

/-- Whatever is done with the flag set, what is under way does not see the flag. -/
theorem exclusively_underway {β : Type} {refusal : Failure} {run : Building α β}
    (yields : Yields (Underway program start []) run fun _ => Underway program start []) :
    Yields (Underway program start []) (exclusively refusal run)
      fun _ => Underway program start [] := by
  have flagged : ∀ reconciling, Yields (Underway program start [])
      (Run.change fun owner => { owner with reconciling } : Building α Unit)
      fun _ => Underway program start [] := fun reconciling =>
    Yields.change fun owner underway => underway.rework (.of_same undisturbed_unseeing rfl rfl)
  refine Yields.read fun busy => ?_
  split
  · exact Yields.throw
  · refine Yields.bind ((flagged true).weaken (fun _ held => held.1) fun _ _ held => held)
      fun _ => Yields.bind (Yields.attempt yields) fun outcome => ?_
    cases outcome with
    | error failure => exact Yields.skip fun _ => Yields.throw
    | ok value =>
      exact Yields.bind ((flagged false).weaken (fun _ held => held value rfl)
        fun _ _ held => held) fun _ => Yields.pure fun _ held => held

omit [DecidableEq α] in
theorem above_none (level : Nat) : Above ([] : List (Frozen α)) level :=
  fun _ among => absurd among List.not_mem_nil

/-- An element of the pass that is dirty is rebuilt. -/
theorem flush_element_underway (fuel : Nat) (id : ElementId) :
    Yields (Underway program start []) (flushElement program fuel id)
      fun _ => Underway program start [] := by
  refine Yields.read fun needed => ?_
  cases needed with
  | false => exact Yields.pure fun _ held => held.1
  | true =>
    rintro owner value last ⟨underway, needed⟩ ran
    obtain ⟨element, mounted, _, rebuilt⟩ := needs_rebuild_iff.mp needed
    -- The component keeps what it holds: what is below it is updated alone.
    have ordered : InTurn [element.frozen id false] := by
      refine ⟨fun own => absurd own Bool.false_ne_true, fun _ => ?_, trivial⟩
      rw [Element.frozen, Element.face, Face.defers, rebuilt, Bool.true_or]
    have entered := underway.enter (f := fun element => { element with dirty := false }) mounted
      (above_none _) ordered rfl rfl (fun _ => ⟨rfl, rfl, rfl, rfl, rfl, le_rfl⟩)
      (fun _ => ⟨rfl, rfl, rfl⟩) fun _ _ => rfl
    have renewed := rebuild_underway fuel (reconcile_child_serving fuel) (above_none _)
      _ value last entered ran
    exact renewed.1.close fun _ _ after _ held _ => Or.inr (renewed.2 after held)

theorem flush_underway (fuel : Nat) :
    Yields (Underway program start []) (flush program fuel) fun _ => Underway program start [] := by
  have rounds : ∀ rounds, Yields (Underway program start []) (flushLoop program fuel rounds)
      fun _ => Underway program start [] := by
    intro rounds
    induction rounds with
    | zero => exact Yields.diverge
    | succ rounds ih =>
      have emptied : Yields (Underway program start [])
          (Run.change fun owner => { owner with dirty := [] } : Building α Unit)
          fun _ => Underway program start [] := Yields.change fun owner underway =>
        underway.rework (.of_same undisturbed_unseeing rfl rfl)
      refine Yields.read fun pending => ?_
      split
      · exact Yields.pure fun _ held => held.1
      · exact Yields.bind (emptied.weaken (fun _ held => held.1) fun _ _ held => held) fun _ =>
          Yields.bind (Yields.each (fun _ => Underway program start [])
            (fun id _ => flush_element_underway fuel id) pending) fun _ => ih
  exact exclusively_underway (rounds fuel)

/-- What `render` does while it is marked as reconciling. -/
theorem reconcile_root_underway (fuel : Nat) (view : View α) (rooted : ∀ id, start.root = some id →
      start.Below ⟨none, 0⟩ id) (underway : Underway program start [] start) :
    Yields (· = { start with reconciling := true }) (do
      let root ← Run.read (·.root)
      let (id, outcome) ← reconcileChild program fuel root view none .none
      Run.change fun owner => { owner with root := some id }
      Run.resume outcome) fun _ => Underway program start [] := by
  have flagged : Underway program start [] { start with reconciling := true } :=
    underway.rework (.of_same undisturbed_unseeing rfl rfl)
  have placed : ∀ id, Yields (Underway program start [])
      (Run.change fun owner => { owner with root := some id } : Building α Unit)
      fun _ => Underway program start [] := fun id =>
    Yields.change fun owner underway => underway.rework (.of_same undisturbed_unseeing rfl rfl)
  have serving : Serving program start (reconcileChild program fuel) :=
    reconcile_child_serving fuel
  refine Yields.read fun root => Yields.bind ((serving [] ⟨none, 0⟩ root view .none (above_none 0)
    (Or.inl rfl)).weaken (fun owner held => ?_) fun _ _ held => held) ?_
  · obtain ⟨rfl, rfl⟩ := held
    exact ⟨flagged, rooted⟩
  · rintro ⟨id, outcome⟩
    cases outcome with
    | error failure => exact Yields.skip fun _ => Yields.throw
    | ok =>
      exact Yields.bind ((placed id).weaken (fun _ held => (held rfl).1) fun _ _ held => held)
        fun _ => Yields.pure fun _ held => held

theorem render_underway (fuel : Nat) (view : View α) (rooted : ∀ id, start.root = some id →
      start.Below ⟨none, 0⟩ id) (underway : Underway program start [] start) :
    Yields (· = start) (render program fuel view) fun _ => Underway program start [] := by
  have returned : Yields (Underway program start [])
      (Run.change fun owner => { owner with reconciling := false } : Building α Unit)
      fun _ => Underway program start [] :=
    Yields.change fun owner underway => underway.rework (.of_same undisturbed_unseeing rfl rfl)
  have reconciled := reconcile_root_underway fuel view rooted underway
  refine Yields.read fun busy => ?_
  split
  · exact Yields.throw
  · refine Yields.bind (Yields.change fun owner held => ?_) fun _ =>
      Yields.bind (Yields.attempt reconciled) fun outcome => ?_
    · rw [held.1]
    · cases outcome with
      | error failure => exact Yields.skip fun _ => Yields.throw
      | ok value =>
        exact Yields.bind (returned.weaken (fun _ held => held value rfl) fun _ _ held => held)
          fun _ => Yields.pure fun _ held => held

/-! Realizing the items of a lazy list. -/

section Realizing
variable (fuel : Nat)

omit [DecidableEq α] in
theorem above_own (frozen : Frozen α) : Above [frozen] frozen.berth.level :=
  above_open (above_none _)

/-- The loop over the items of a lazy list, with everything it may reuse at hand. -/
theorem realize_items_underway (items : List (Key × View α)) : ∀ children : LazyChildren,
    Yields (Holding program start [frozen] frozen.berth children.all)
      (realizeItems (reconcileChild program fuel) fuel frozen.id children items)
      fun children => Holding program start [frozen] frozen.berth children.all := by
  induction items with
  | nil => exact fun children => Yields.pure fun _ holding => holding
  | cons item items ih =>
    obtain ⟨key, view⟩ := item
    intro children
    refine Yields.read fun (found, left) => ?_
    refine Yields.knowing (fun owner held => take_splits held.2) fun taken => ?_
    refine Yields.bind ((child_holding (reconcile_child_serving fuel) (reconcile_later fuel)
      (above_none _) found view key fun id same => ?_).weaken (fun _ held => held.1)
        fun _ _ held => held) fun (child, outcome) => ?_
    · refine taken.mem_iff.mpr (List.mem_append_left _ ?_)
      rw [same]
      exact List.mem_singleton_self id
    cases outcome with
    | error failure =>
      exact Yields.skip fun _ => Yields.skip fun _ => Yields.skip fun _ => Yields.skip fun _ =>
        Yields.skip fun _ => Yields.skip fun _ => Yields.throw
    | ok =>
      refine (ih { left with next := left.next ++ [child] }).weaken
        (fun owner held => (held rfl).1.fewer fun id listed => ?_) fun _ _ held => held
      have among : id = child ∨ id ∈ left.all := by
        simp only [LazyChildren.all, List.mem_append, List.mem_singleton] at listed ⊢
        tauto
      rcases among with rfl | among
      · exact .head _
      · exact .tail _ (taken.mem_iff.mpr (List.mem_append_right _ among))

/-- Retaining some of what is left over, with others at hand. -/
theorem retain_underway (keys : List Key) (others children : List ElementId) : ∀ retained,
    Yields (Holding program start [frozen] frozen.berth (children ++ (retained ++ others)))
      (retainOrUnmount fuel keys retained children : Building α (List ElementId))
      fun kept => Holding program start [frozen] frozen.berth (kept ++ others) := by
  induction children with
  | nil => exact fun retained => Yields.pure fun _ holding => holding
  | cons child children ih =>
    intro retained
    refine Yields.read fun key => ?_
    split
    · refine (ih (retained ++ [child])).weaken (fun owner held => held.1.fewer fun id listed => ?_)
        fun _ _ held => held
      simp only [List.cons_append, List.mem_cons, List.mem_append, List.not_mem_nil] at listed ⊢
      tauto
    · exact Yields.bind ((unmount_one_holding fuel (above_own frozen) (.head _)
        (List.subset_cons_self _ _)).weaken (fun _ held => held.1) fun _ _ held => held)
        fun _ => ih retained

/-- Realizing a range of the open list, with the children it has kept alive at hand. -/
theorem realize_range_underway (type : TypeToken) (model : LazyModel α)
    (keptAlive : List ElementId) (range : ChildRange) :
    Yields (Holding program start [frozen] frozen.berth keptAlive)
      (realizeRange program fuel frozen.id type model keptAlive range)
      fun _ => Underway program start [frozen] := by
  have stays : ∀ {β : Type} {run : Building α β} {post : β → BuildOwner α → Prop},
      (∀ start : BuildOwner α, Keeps start.Later run) →
      Yields (Underway program start [frozen]) run post →
      Yields (Holding program start [frozen] frozen.berth keptAlive) run fun value owner =>
        post value owner ∧ ∀ id ∈ keptAlive, owner.Below frozen.berth id := by
    intro β run post later yields
    have alone : Yields (fun owner => Underway program start [frozen] owner ∧ True) run post :=
      yields.weaken (fun _ held => held.1) fun _ _ held => held
    exact (below_stays alone later).weaken (fun _ held => ⟨held, trivial⟩) fun _ _ held => held
  unfold realizeRange
  split
  · exact Yields.throw
  · refine Yields.bind (stays
      (fun start => (later_lasting program start).durable.build_lazy_items type _ _)
      (Yields.of_keeps (underway_keeps fun _ =>
        build_lazy_items_reworks undisturbed_unseeing program type _ []))) fun views => ?_
    refine Yields.bind (stays (fun _ => Keeps.read) children_underway) fun previous => ?_
    have cleared : Yields (Holding program start [frozen] frozen.berth
          (previous ++ keptAlive)) (setChildren frozen.id [] : Building α Unit)
        fun _ => Holding program start [frozen] frozen.berth (previous ++ keptAlive) :=
      set_children_holding [] (List.nil_subset _) (List.Subset.refl _)
    have emptied : Yields (Holding program start [frozen] frozen.berth
          (previous ++ keptAlive)) (setKeptAlive frozen.id [] : Building α Unit)
        fun _ => Holding program start [frozen] frozen.berth
          (LazyChildren.all ⟨[], previous, keptAlive⟩) :=
      set_kept_alive_holding [] (List.nil_subset _) (List.Subset.refl _)
    refine Yields.bind (cleared.weaken (fun owner held => ⟨held.1.1, fun id listed => ?_⟩)
      fun _ _ held => held) fun _ => Yields.bind emptied fun _ =>
        Yields.bind (realize_items_underway fuel views ⟨[], previous, keptAlive⟩) fun made => ?_
    · rcases List.mem_append.mp listed with listed | listed
      · exact held.1.2 id listed
      · exact held.2 id listed
    refine Yields.bind ((retain_underway fuel model.keepAliveKeys (made.previous ++ made.next)
      made.keptAlive []).weaken (fun owner held => held.fewer fun id listed => ?_)
        fun _ _ held => held) fun retained => ?_
    · simp only [LazyChildren.all, List.nil_append, List.mem_append] at listed ⊢
      tauto
    refine Yields.bind ((retain_underway fuel model.keepAliveKeys made.next made.previous
      retained).weaken (fun owner held => held.fewer fun id listed => ?_) fun _ _ held => held)
        fun retained => ?_
    · simp only [List.mem_append] at listed ⊢
      tauto
    · exact Yields.bind (set_children_holding made.next (List.subset_append_right _ _)
        (List.subset_append_left _ _)) fun _ => Yields.bind (set_kept_alive_underway retained)
          fun _ => enforce_limit_underway fuel (above_none _)

theorem realize_lazy_children_underway (requests : ElementId → Option ChildRange) : ∀ id,
    Yields (Underway program start []) (realizeLazyChildren program requests fuel id)
      fun _ => Underway program start [] := by
  induction fuel with
  | zero => exact fun _ => Yields.diverge
  | succ fuel ih =>
    intro id
    have below : ∀ realized, Yields (Underway program start []) (do
        let children ← childrenOf id
        let below ← Run.anyOf (realizeLazyChildren program requests fuel) children
        pure (realized || below)) fun _ => Underway program start [] := fun realized =>
      Yields.read fun children => Yields.bind ((Yields.anyOf ih children).weaken
        (fun _ held => held.1) fun _ _ held => held) fun _ => Yields.pure fun _ held => held
    rw [realizeLazyChildren]
    refine Yields.read fun found => ?_
    cases found with
    | none => exact Yields.pure fun _ held => held.1
    | some element =>
      dsimp only
      split
      · rename_i range model requested modelled
        refine Yields.bind (?_ : Yields _ _ fun _ => Underway program start []) fun _ => below true
        rintro owner value last ⟨underway, mounted⟩ ran
        have ordered : InTurn [element.frozen id false] := by
          refine ⟨fun own => absurd own Bool.false_ne_true, fun _ => ?_, trivial⟩
          rw [Element.frozen, Element.face, Face.defers, modelled, Option.isSome_some, Bool.or_true]
        have entered := underway.enter (f := fun element => element) mounted (above_none _)
          ordered (registry_update_self id).symm rfl (fun element => .refl element)
          (fun _ => ⟨rfl, rfl, rfl⟩) fun _ _ => rfl
        have realized := realize_range_underway fuel element.viewType.2 model
          element.lazyKeptAliveChildren range owner value last ⟨entered, fun child listed => ?_⟩ ran
        · refine realized.close fun _ before after stood held due => ?_
          have lazy := underway.lazy id element mounted (by rw [modelled]; rfl)
          obtain ⟨_, again, lasts⟩ := underway.later.elements id element
            (underway.issued id (Option.isSome_iff_exists.mpr ⟨before, stood⟩)) mounted
          cases stood.symm.trans again
          have component := due.1
          rw [← lasts.viewType, lazy] at component
          cases component
        · exact entered.listed mounted child (List.mem_append_right _ listed)
      · exact (below false).weaken (fun _ held => held.1) fun _ _ held => held

end Realizing

/-! Calls. -/

theorem layer_frame_underway (renderer : Renderer α) (fuel : Nat) :
    Yields (Underway program start []) (layerFrame program renderer fuel)
      fun _ => Underway program start [] := by
  have laid : ∀ rounds, Yields (Underway program start []) (layOut renderer fuel rounds)
      fun _ => Underway program start [] := fun rounds =>
    Yields.of_keeps (Durable.lay_out renderer fuel rounds)
  have composited : Yields (Underway program start []) (compositeFrame renderer)
      fun _ => Underway program start [] :=
    Yields.of_keeps (Keeps.bind Keeps.read fun _ => Keeps.resume)
  have realized : ∀ requests, Yields (Underway program start [])
      (realizeRequests program fuel requests) fun _ => Underway program start [] := by
    intro requests
    unfold realizeRequests
    refine Yields.bind (exclusively_underway (Yields.read fun root => ?served)) fun realized => ?_
    case served =>
      cases root with
      | none => exact Yields.pure fun _ held => held.1
      | some root =>
        exact (realize_lazy_children_underway fuel requests root).weaken (fun _ held => held.1)
          fun _ _ held => held
    split
    · exact Yields.pure fun _ held => held
    · exact Yields.throw
  have looped : ∀ rounds, Yields (Underway program start [])
      (frameLoop program renderer (flush program fuel) fuel rounds)
      fun _ => Underway program start [] := by
    intro rounds
    induction rounds with
    | zero =>
      refine Yields.bind (laid 0) fun requests => ?_
      cases requests with
      | none => exact composited
      | some requests => exact Yields.throw
    | succ rounds ih =>
      refine Yields.bind (laid (rounds + 1)) fun requests => ?_
      cases requests with
      | none => exact composited
      | some requests =>
        exact Yields.bind (realized requests) fun _ => Yields.bind (flush_underway fuel) fun _ => ih
  have flagged : ∀ framing, Yields (Underway program start [])
      (Run.change fun owner => { owner with framing } : Building α Unit)
      fun _ => Underway program start [] := fun framing =>
    Yields.change fun owner underway => underway.rework (.of_same undisturbed_unseeing rfl rfl)
  refine Yields.read fun framing => ?_
  split
  · exact Yields.throw
  · refine Yields.bind ((flagged true).weaken (fun _ held => held.1) fun _ _ held => held)
      fun _ => Yields.bind (Yields.attempt (Yields.bind (flush_underway fuel) fun _ =>
        looped maxRealizationRounds)) fun outcome => ?_
    cases outcome with
    | error failure => exact Yields.skip fun _ => Yields.throw
    | ok value =>
      exact Yields.bind ((flagged false).weaken (fun _ held => held value rfl)
        fun _ _ held => held) fun _ => Yields.pure fun _ held => held

/-- A call that returns has served every element there was. -/
theorem perform_underway (fuel : Nat) (call : Call α)
    (rooted : ∀ id, start.root = some id → start.Below ⟨none, 0⟩ id)
    (underway : Underway program start [] start) :
    Yields (· = start) (perform program fuel call) fun _ => Underway program start [] := by
  have changing : ∀ {f : BuildOwner α → BuildOwner α},
      (∀ owner, Reworks Element.Undisturbed owner (f owner)) →
      Yields (· = start) (Run.change f : Building α Unit) fun _ => Underway program start [] :=
    fun reworks => Yields.change fun owner same => by
      subst same
      exact underway.rework (reworks owner)
  have at_start : ∀ {run : Building α Unit}, Yields (Underway program start []) run
      (fun _ => Underway program start []) →
      Yields (· = start) run fun _ => Underway program start [] := fun yields =>
    yields.weaken (fun owner same => same ▸ underway) fun _ _ held => held
  cases call with
  | render view => exact render_underway fuel view rooted underway
  | flush => exact at_start (flush_underway fuel)
  | layerFrame renderer => exact at_start (layer_frame_underway renderer fuel)
  | setState handle value =>
    exact at_start (Yields.of_keeps (underway_keeps fun _ =>
      set_state_reworks undisturbed_unseeing handle value))
  | setSignal signal value =>
    exact changing fun owner => write_reworks undisturbed_unseeing owner _ value
  | createSignal comparable value =>
    exact changing fun owner => .of_same undisturbed_unseeing rfl rfl
  | destroySignal signal =>
    exact changing fun owner => drop_source_reworks undisturbed_unseeing owner _

/-! Runs. -/

/-- Where the elements are in their places, nothing is under way. -/
theorem orderly_underway (orderly : Orderly (fun _ => False) owner) :
    Underway program owner [] owner ∧
      ∀ id, owner.root = some id → owner.Below ⟨none, 0⟩ id := by
  obtain ⟨root, settled⟩ := orderly
  have issued : owner.Issued := by
    intro id there
    obtain ⟨node, found⟩ := Settled.registered.mp there
    exact settled.issued id node found
  refine ⟨⟨issued, .refl issued, fun id element mounted child listed => ?_,
    fun id element mounted modelled => ?_, fun _ among => absurd among List.not_mem_nil, trivial,
    fun id _ before after stood held _ => ?_⟩, fun id first => ?_⟩
  · obtain ⟨_, found, named⟩ :=
      (Hierarchy.Placed.listed_iff settled (mounted_node mounted)).mp listed
    refine ⟨settled.issued child _ found, fun other held => ?_⟩
    obtain rfl : other.node = _ := Option.some.inj ((mounted_node held).symm.trans found)
    rcases settled.lineage child other.node found with
      ⟨top, _⟩ | ⟨above, parent, named', there, deep⟩
    · cases named.symm.trans top
    · cases named.symm.trans named'
      obtain rfl : element.node = _ := Option.some.inj ((mounted_node mounted).symm.trans there)
      exact ⟨named, le_of_eq deep.symm⟩
  · apply (settled.sound id element.node (mounted_node mounted)).lazy
    simpa [Element.node] using modelled
  · cases stood.symm.trans held
    exact Or.inl ⟨rfl, fun dirty => dirty⟩
  · obtain ⟨_, found, named⟩ := (Hierarchy.Placed.names_none settled).mpr
      (settled.rooted.symm.trans first)
    refine ⟨settled.issued id _ found, fun element mounted => ⟨?_, Nat.zero_le _⟩⟩
    obtain rfl : element.node = _ := Option.some.inj ((mounted_node mounted).symm.trans found)
    exact named

omit [DecidableEq α] in
/-- What an element lists is mounted, under it. -/
theorem listed_mounted (orderly : Orderly (fun _ => False) owner) {element : Element α}
    (mounted : owner.registry id = some element) {child : ElementId}
    (listed : child ∈ element.children ++ element.lazyKeptAliveChildren) :
    ∃ shown, owner.registry child = some shown ∧ shown.parent = some id := by
  obtain ⟨root, settled⟩ := orderly
  obtain ⟨_, found, named⟩ := (Hierarchy.Placed.listed_iff settled (mounted_node mounted)).mp listed
  obtain ⟨shown, there, rfl⟩ := Option.map_eq_some_iff.mp found
  exact ⟨shown, there, named⟩

/-- What an element shows after a call was built during the call, from a value that its type
takes to be equal to the one it holds. Its only child is what reconciling the view has come
to. The child is mounted and holds what the view gives it, and so is everything inside of
it, down to the next components and lazy lists, as it was when it had been reconciled. -/
structure BuildOwner.RebuiltBy (start owner : BuildOwner α) (id : ElementId)
    (element : Element α) (build : CompletedBuild program start id) (last : α) : Prop where
  type : element.viewType.2 = build.type
  descriptor : element.descriptor = some last
  equal : Relation.ReflTransGen (fun old new => program.same build.type old new = true)
    build.value last
  children : element.children = [build.child]
  child : ∃ shown, owner.registry build.child = some shown ∧ shown.parent = some id ∧
    shown.viewType = build.view.token ∧ shown.key = .none ∧ build.view.HeldBy shown.face ∧
    ∀ earlier, start.registry build.child = some earlier →
      earlier.updateCount < shown.updateCount
  later : build.reconciled.Later owner
  inner : ∀ inner, build.reconciled.Inner build.child inner → ∃ before after,
    build.reconciled.registry inner = some before ∧ owner.registry inner = some after ∧
      before.Lasts after ∧ before.Stands after

def BuildOwner.Rebuilt (program : Program α) (start owner : BuildOwner α) (id : ElementId)
    (element : Element α) : Prop :=
  ∃ (build : CompletedBuild program start id) (last : α),
    start.RebuiltBy owner id element build last

/-- Between calls everything is mounted that is listed, and so what was remade is there. -/
theorem BuildOwner.Remade.rebuilt (orderly : Orderly (fun _ => False) owner) {element : Element α}
    (mounted : owner.registry id = some element)
    (remade : start.Remade program owner id element) : start.Rebuilt program owner id element := by
  obtain ⟨build, last, remade⟩ := remade
  have listed : build.child ∈ element.children ++ element.lazyKeptAliveChildren := by
    rw [remade.children]
    exact .head _
  have inner : ∀ inner, build.reconciled.Inner build.child inner → ∃ before after,
      build.reconciled.registry inner = some before ∧ owner.registry inner = some after ∧
        before.Lasts after ∧ before.Stands after := by
    intro inner within
    obtain ⟨after, there⟩ : ∃ after, owner.registry inner = some after := by
      induction within with
      | self =>
        obtain ⟨shown, there, _⟩ := listed_mounted orderly mounted listed
        exact ⟨shown, there⟩
      | deeper within stood plain listed ih =>
        obtain ⟨upper, held⟩ := ih
        have kept := (remade.standing.stands _ within _ upper stood held).children plain
        obtain ⟨shown, there, _⟩ := listed_mounted orderly held
          (List.mem_append_left _ (kept ▸ listed))
        exact ⟨shown, there⟩
    obtain ⟨before, stood, lasts⟩ := remade.standing.former within there
    exact ⟨before, after, stood, there, lasts,
      remade.standing.stands inner within before after stood there⟩
  obtain ⟨before, shown, stood, there, _, stands⟩ := inner build.child .self
  obtain ⟨_, again, parent⟩ := listed_mounted orderly mounted listed
  cases there.symm.trans again
  obtain ⟨typed, keyed, counted⟩ := remade.refreshed.2 shown there
  refine ⟨build, last, remade.type, remade.descriptor, remade.equal, remade.children,
    ⟨shown, there, parent, typed, keyed, ?_, counted⟩, remade.standing.later, inner⟩
  rw [stands.face]
  exact remade.held before stood

/-- A component that is not dirty and is reconciled with a value equal to the one it holds is
left as it is, whatever its last build has come to. -/
theorem equal_component_left_alone (program : Program α) (fuel : Nat) {element : Element α}
    (mounted : owner.registry id = some element) {type : TypeToken}
    (typed : element.viewType = (.component, type)) (comparable : program.comparable type = true)
    (clean : element.dirty = false) {last value : α} (held : element.descriptor = some last)
    (equal : program.same type last value = true) (parent : Option ElementId) :
    ∃ next, reconcileChild program (fuel + 1) (some id) (.component type value) parent
        element.key owner = some (.ok (id, .ok ()), next) ∧
      next.registry id = some { element with
        updateCount := element.updateCount + 1
        descriptor := some value
        rebuildingDirty := false } := by
  have reusable : (some id).filter (fits owner (.component type value) element.key) =
      some id := by
    simp [fits, mounted, typed, View.token]
  have begun : (owner.beginUpdate id).registry id = some { element with
      updateCount := element.updateCount + 1
      rebuildingDirty := element.dirty
      dirty := false } := by
    simp [beginUpdate, updateElement, mounted]
  have described : ((owner.beginUpdate id).updateElement id fun element =>
      { element with descriptor := some value }).registry id = some { element with
      updateCount := element.updateCount + 1
      descriptor := some value
      rebuildingDirty := element.dirty
      dirty := false } := by
    rw [registry_update, if_pos rfl, begun, Option.map_some]
  have skipped : updateComponent program (reconcileChild program fuel) fuel id type value
      (owner.beginUpdate id) = some (.ok (), (owner.beginUpdate id).updateElement id
        fun element => { element with descriptor := some value }) := by
    simp [updateComponent, bind, Run.bind, Run.read, Run.change, begun, described, comparable,
      held, equal, clean, pure, Run.pure]
  refine ⟨((owner.beginUpdate id).updateElement id fun element =>
    { element with descriptor := some value }).endUpdate id, ?_, ?_⟩
  · simp [reconcileChild, bind, Run.bind, Run.read, Run.change, Run.attempt, reusable, pure,
      Run.pure, updateView, skipped]
  · rw [endUpdate, registry_update, if_pos rfl, described, Option.map_some, clean]

/-- A component of which no build returns, until the application is mended. -/
def brokenProgram (comparable : Bool) : Program Nat where
  build _ _ := .throw (.logicError "unavailable")
  item _ _ := .throw (.logicError "unavailable")
  comparable _ := comparable
  same _ first second := first == second

def mendedProgram (comparable : Bool) : Program Nat where
  build _ value := .done (.leaf 0 none value)
  item _ _ := .throw (.logicError "unavailable")
  comparable _ := comparable
  same _ first second := first == second

end Dui
