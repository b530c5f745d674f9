import Dui.Win32Hierarchy

/-! What the Win32 adapter accepts of arbitrary batches, and that it accepts and shows every
tree that a semantics differ turns into batches for it. -/
namespace Dui
open ForestEdit

variable {platform : Win32Platform} {scale : ℚ} {model next : ProviderModel}
  {changes : List SemanticsChange}

theorem scaled_ok_iff (nodes : List NativeNode) :
    validateScaledBounds platform scale nodes = .ok () ↔
      ∀ node ∈ nodes, scaledFinite platform scale node.entry.bounds = true := by
  induction nodes with
  | nil => exact ⟨fun _ node listed => absurd listed List.not_mem_nil, fun _ => rfl⟩
  | cons node rest ih =>
    rw [validateScaledBounds, List.forall_mem_cons]
    split
    · rename_i finite
      rw [ih]
      exact ⟨fun others => ⟨finite, others⟩, fun both => both.2⟩
    · rename_i infinite
      exact ⟨nofun, fun both => absurd both.1 infinite⟩

/-- What an adapter can serve at its scale. -/
def Servable (platform : Win32Platform) (scale : ℚ) (m : Mirror Nat SemanticsEntry) : Prop :=
  Presentable platform m ∧
    ∀ id entry, m id = some entry → scaledFinite platform scale entry.bounds = true

theorem prepare_ok (distinct : model.Distinct)
    (prepared : model.prepare platform scale changes = .ok next) :
    (∀ change ∈ changes, change.entry.id ≠ 0) ∧ next.Distinct ∧
      ∃ m, replay entryKeys model.mirror changes = some m ∧ Servable platform scale m ∧
        next.Shows m := by
  simp only [ProviderModel.prepare, bind_ok_iff] at prepared
  obtain ⟨replayed, applied, rebuilt, accepted, _, scaled, same⟩ := prepared
  cases same
  obtain ⟨nonzero, distinct', replays⟩ :=
    ProviderModel.apply_changes_ok changes ⟨model.nodes, []⟩ distinct replayed applied
  obtain ⟨presentable, distinct'', shows'⟩ := rebuild_ok distinct' accepted
  refine ⟨nonzero, distinct'', replayed.mirror, replays, ⟨presentable, fun id entry held => ?_⟩,
    shows'⟩
  rw [← shows'.mirror, next.mirror_find] at held
  obtain ⟨node, found, rfl⟩ := Option.map_eq_some_iff.mp held
  have listed := List.mem_of_find?_eq_some found
  exact (scaled_ok_iff _).mp scaled node ((platform.arrange_perm _).mem_iff.mpr listed)

theorem prepare_accepts (distinct : model.Distinct)
    (nonzero : ∀ change ∈ changes, change.entry.id ≠ 0) {m : Mirror Nat SemanticsEntry}
    (replays : replay entryKeys model.mirror changes = some m)
    (servable : Servable platform scale m) :
    ∃ next, model.prepare platform scale changes = .ok next := by
  obtain ⟨replayed, applied⟩ :=
    ProviderModel.apply_changes_accepts changes ⟨model.nodes, []⟩ distinct m nonzero replays
  obtain ⟨_, distinct', same⟩ :=
    ProviderModel.apply_changes_ok changes ⟨model.nodes, []⟩ distinct replayed applied
  cases replays.symm.trans same
  obtain ⟨rebuilt, accepted⟩ := rebuild_accepts distinct' servable.1
  obtain ⟨_, _, shows'⟩ := rebuild_ok distinct' accepted
  have scaled : validateScaledBounds platform scale (platform.arrange rebuilt.nodes) = .ok () := by
    refine (scaled_ok_iff _).mpr fun node listed => ?_
    have among := (platform.arrange_perm _).mem_iff.mp listed
    have nodup := ProviderModel.distinct_iff.mp (rebuild_ok distinct' accepted).2.1
    refine servable.2 node.entry.id node.entry ?_
    rw [← shows'.mirror, ProviderModel.mirror, mirror_of_some nodup]
    exact ⟨List.mem_map_of_mem among, rfl⟩
  refine ⟨rebuilt, ?_⟩
  simp only [ProviderModel.prepare, bind_ok_iff]
  exact ⟨replayed, applied, rebuilt, accepted, (), scaled, rfl⟩

/-- An adapter to which these batches have been delivered, whatever has come of them. -/
def ProviderModel.after (platform : Win32Platform) (scale : ℚ)
    (batches : List (List SemanticsChange)) : ProviderModel :=
  batches.foldl (fun model batch => (model.apply platform scale batch).2) {}

theorem apply_distinct (distinct : model.Distinct) (changes : List SemanticsChange) :
    (model.apply platform scale changes).2.Distinct := by
  unfold ProviderModel.apply
  cases prepared : model.prepare platform scale changes with
  | error failure => exact distinct
  | ok next => exact (prepare_ok distinct prepared).2.1

theorem after_distinct (batches : List (List SemanticsChange)) :
    (ProviderModel.after platform scale batches).Distinct := by
  unfold ProviderModel.after
  refine List.foldlRecOn batches _ (motive := ProviderModel.Distinct) List.nodup_nil ?_
  exact fun model distinct batch _ => apply_distinct distinct batch

/-! Trees. -/

/-- The bounds of a tree are valid, and finite at this scale. -/
def SemanticsTree.Bounded (platform : Win32Platform) (scale : ℚ) (tree : SemanticsTree) : Prop :=
  ∀ place ∈ tree.places, validRect platform place.node.bounds = true ∧
    scaledFinite platform scale place.node.bounds = true

theorem ordered_forest {entries : List SemanticsEntry} (ordered : Ordered entryKeys entries) :
    Forest entryKeys (mirrorOf entryKeys entries) := by
  have empty : Ordered entryKeys ([] : List SemanticsEntry) := ⟨List.nodup_nil, trivial⟩
  obtain ⟨m, replayed, forest⟩ := script_prefix_forest empty ordered (List.prefix_refl _)
  cases (script_replay empty ordered).symm.trans replayed
  exact forest

/-- An accepted tree with valid bounds can be served. -/
theorem servable_of_accepted {tree : SemanticsTree} (accepted : flattenTree tree = .ok tree.entries)
    (bounded : tree.Bounded platform scale) :
    Servable platform scale (mirrorOf entryKeys tree.entries) := by
  have publishable := (flatten_accepts_iff tree).mp accepted
  have forest := ordered_forest (flatten_tree_ok accepted).2
  have placed : ∀ {id entry}, mirrorOf entryKeys tree.entries id = some entry →
      ∃ place ∈ tree.places, place.entry = entry ∧ place.node.id = id := fun held =>
    (publishable.mirror_iff _ _).mp held
  refine ⟨⟨forest, fun id entry held => ?_, fun id entry held => ?_,
    fun first second entry other held also focused chosen => ?_, fun id entry held => ?_,
    fun parent => ?_⟩, fun id entry held => ?_⟩
  · obtain ⟨place, listed, rfl, rfl⟩ := placed held
    exact (bounded place listed).1
  · obtain ⟨place, listed, rfl, rfl⟩ := placed held
    exact (publishable.sound place listed).focused
  · have few : tree.entries.countP (·.focused) ≤ 1 := by
      rw [entries_places, List.countP_map]
      exact publishable.alone
    have nodup := publishable.nodup
    obtain ⟨listed, rfl⟩ := (mirror_of_some nodup).mp held
    obtain ⟨among, rfl⟩ := (mirror_of_some nodup).mp also
    exact (count_le_one_iff nodup).mp few entry listed other among focused chosen
  · obtain ⟨place, listed, rfl, rfl⟩ := placed held
    exact (publishable.sound place listed).actions
  · cases parent with
    | none => exact ⟨_, publishable.roots_enumerated⟩
    | some parent =>
      cases held : mirrorOf entryKeys tree.entries parent with
      | none =>
        refine ⟨[], fun id => ⟨nofun, ?_⟩, nofun⟩
        rintro ⟨entry, here, named⟩
        have there := forest.parent_present id parent ⟨entry, here, named⟩
        rw [held] at there
        cases there
      | some entry =>
        obtain ⟨place, listed, rfl, rfl⟩ := placed held
        exact ⟨_, publishable.children_enumerated listed⟩
  · obtain ⟨place, listed, rfl, rfl⟩ := placed held
    exact (bounded place listed).2

/-- An adapter serves the nodes of a tree, each with its children in order. -/
structure ProviderModel.Reproduces (model : ProviderModel) (tree : SemanticsTree) : Prop where
  roots : model.roots = tree.roots.map SemanticsNode.id
  served : ∀ place ∈ tree.places,
    ⟨place.entry, place.node.children.map SemanticsNode.id⟩ ∈ model.nodes
  only : ∀ node ∈ model.nodes, ∃ place ∈ tree.places,
    node = ⟨place.entry, place.node.children.map SemanticsNode.id⟩

theorem reproduces_of_shows {tree : SemanticsTree} (publishable : tree.Publishable)
    (distinct : model.Distinct) (shown : model.Shows (mirrorOf entryKeys tree.entries)) :
    model.Reproduces tree := by
  have nodup := ProviderModel.distinct_iff.mp distinct
  have held : ∀ node ∈ model.nodes,
      mirrorOf entryKeys tree.entries node.entry.id = some node.entry := by
    intro node listed
    rw [← shown.mirror, ProviderModel.mirror, mirror_of_some nodup]
    exact ⟨List.mem_map_of_mem listed, rfl⟩
  -- The list of a node that is served is the one enumeration of its children.
  have exact : ∀ node ∈ model.nodes, ∀ place ∈ tree.places, place.entry = node.entry →
      node = ⟨place.entry, place.node.children.map SemanticsNode.id⟩ := by
    intro node listed place among same
    have named : node.entry.id = place.node.id := congrArg SemanticsEntry.id same.symm
    have enumerated := shown.children node listed
    rw [named] at enumerated
    rw [same, ← enumerated.unique (publishable.children_enumerated among)]
  refine ⟨shown.roots.unique publishable.roots_enumerated, fun place among => ?_,
    fun node listed => ?_⟩
  · have there := (publishable.mirror_iff _ _).mpr ⟨place, among, rfl, rfl⟩
    rw [← shown.mirror, ProviderModel.mirror, mirror_of_some nodup] at there
    obtain ⟨node, listed, same⟩ := List.mem_map.mp there.1
    rw [← exact node listed place among same.symm]
    exact listed
  · obtain ⟨place, among, same, _⟩ := (publishable.mirror_iff _ _).mp (held node listed)
    exact ⟨place, among, exact node listed place among same⟩

/-- Delivers what a differ makes of these calls, batch by batch. -/
def deliverAll (platform : Win32Platform) (scale : ℚ) :
    List DifferCall → SemanticsDiffer → ProviderModel → Except Failure ProviderModel
  | [], _, model => pure model
  | .update tree :: rest, differ, model =>
    match differ.update tree with
    | (.error _, differ) => deliverAll platform scale rest differ model
    | (.ok changes, differ) =>
      match model.apply platform scale changes with
      | (.error failure, _) => throw failure
      | (.ok _, model) => deliverAll platform scale rest differ model
  | .clear :: rest, differ, model =>
    match model.apply platform scale differ.clear.1 with
    | (.error failure, _) => throw failure
    | (.ok _, model) => deliverAll platform scale rest differ.clear.2 model

/-- What a differ emits for a tree that can be served is accepted, and shows the tree. -/
theorem emitted_accepted {run after : DifferRun} (exact : run.Exact) (exact' : after.Exact)
    (distinct : model.Distinct) (shown : model.Shows (mirrorOf entryKeys run.shown.entries))
    {update : SemanticsUpdate} (emits : run.differ.Emits after.differ update)
    (bounded : after.shown.Bounded platform scale) :
    ∃ next, model.apply platform scale update = (.ok (), next) ∧ next.Distinct ∧
      next.Shows (mirrorOf entryKeys after.shown.entries) := by
  have nonzero : ∀ {run : DifferRun}, run.Exact → ∀ entry ∈ run.differ.entries, entry.id ≠ 0 := by
    intro run exact entry listed
    have publishable := (flatten_accepts_iff run.shown).mp exact.accepted
    have held := (mirror_of_some exact.ordered.nodup).mpr ⟨listed, rfl⟩
    rw [exact.same, publishable.mirror_iff] at held
    obtain ⟨place, among, rfl, _⟩ := held
    exact (publishable.sound place among).nonzero
  have replays : replay entryKeys model.mirror update =
      some (mirrorOf entryKeys after.shown.entries) := by
    rw [shown.mirror, ← exact.same, emits.replayed, exact'.same]
  have named : ∀ change ∈ update, change.entry.id ≠ 0 := by
    intro change listed
    rcases emits.named change listed with before | after
    · exact nonzero exact _ before
    · exact nonzero exact' _ after
  obtain ⟨next, prepared⟩ := prepare_accepts distinct named replays
    (servable_of_accepted exact'.accepted bounded)
  obtain ⟨_, distinct', m, again, _, shows'⟩ := prepare_ok distinct prepared
  cases replays.symm.trans again
  exact ⟨next, by rw [ProviderModel.apply, prepared], distinct', shows'⟩

/-- Delivering the batches of a differ in use, by induction on the calls. -/
theorem deliver_all_accepted (calls : List DifferCall) : ∀ (run : DifferRun) (model : ProviderModel),
    run.Exact → model.Distinct → model.Shows (mirrorOf entryKeys run.shown.entries) →
      (∀ tree, .update tree ∈ calls → tree.Bounded platform scale) →
      ∃ next, deliverAll platform scale calls run.differ model = .ok next ∧ next.Distinct ∧
        next.Shows (mirrorOf entryKeys (calls.foldl DifferRun.step run).shown.entries) := by
  induction calls with
  | nil => exact fun run model _ distinct shown _ => ⟨model, rfl, distinct, shown⟩
  | cons call rest ih =>
    intro run model exact distinct shown bounded
    have exact' := exact.step call
    have later : ∀ tree, .update tree ∈ rest → tree.Bounded platform scale :=
      fun tree listed => bounded tree (.tail _ listed)
    rw [List.foldl_cons]
    cases call with
    | update tree =>
      rw [deliverAll]
      simp only [DifferRun.step] at exact' ⊢
      cases updated : run.differ.update tree with
      | mk outcome differ =>
        rw [updated] at exact'
        cases outcome with
        | error failure => exact ih _ model exact' distinct shown later
        | ok changes =>
          obtain ⟨next, applied, distinct', shows'⟩ := emitted_accepted exact exact' distinct shown
            (update_emits exact.ordered updated) (bounded tree (.head _))
          dsimp only
          rw [applied]
          exact ih _ next exact' distinct' shows' later
    | clear =>
      obtain ⟨next, applied, distinct', shows'⟩ := emitted_accepted exact exact' distinct shown
        (clear_emits exact.ordered) fun place listed => absurd listed List.not_mem_nil
      rw [deliverAll, applied]
      exact ih _ next exact' distinct' shows' later

/-- For any calls on a differ with trees whose bounds are valid, the adapter accepts every
batch and reproduces the tree last accepted. For any batches before it, a batch is accepted
exactly if it names no identity zero, can be replayed, and comes to entries that can be
served; then the lists of the adapter are the hierarchy of those entries, and what is not
accepted changes nothing. -/
theorem win32_adapter_exact (platform : Win32Platform) (scale : ℚ) :
    (∀ calls : List DifferCall, (∀ tree, .update tree ∈ calls → tree.Bounded platform scale) →
      ∃ adapter, deliverAll platform scale calls {} {} = .ok adapter ∧
        adapter.Reproduces (DifferRun.after calls).shown) ∧
      ∀ (batches : List (List SemanticsChange)) (batch : List SemanticsChange),
        (((ProviderModel.after platform scale batches).apply platform scale batch).1 = .ok () ↔
          (∀ change ∈ batch, change.entry.id ≠ 0) ∧ ∃ m,
            replay entryKeys (ProviderModel.after platform scale batches).mirror batch = some m ∧
              Servable platform scale m) ∧
        (∀ m, replay entryKeys (ProviderModel.after platform scale batches).mirror batch =
            some m →
          ((ProviderModel.after platform scale batches).apply platform scale batch).1 = .ok () →
          ((ProviderModel.after platform scale batches).apply platform scale batch).2.Shows m) ∧
        ∀ failure,
          ((ProviderModel.after platform scale batches).apply platform scale batch).1 =
            .error failure →
          ((ProviderModel.after platform scale batches).apply platform scale batch).2 =
            ProviderModel.after platform scale batches := by
  refine ⟨fun calls bounded => ?_, fun batches batch => ?_⟩
  · have start : DifferRun.Exact {} := differ_run_exact []
    have empty : ProviderModel.Shows {} (mirrorOf entryKeys (SemanticsTree.entries {})) :=
      ⟨rfl, ((flatten_accepts_iff {}).mp start.accepted).roots_enumerated,
        fun node listed => absurd listed List.not_mem_nil⟩
    obtain ⟨adapter, delivered, distinct, shown⟩ :=
      deliver_all_accepted calls {} {} start List.nodup_nil empty bounded
    exact ⟨adapter, delivered, reproduces_of_shows
      ((flatten_accepts_iff _).mp (differ_run_exact calls).accepted) distinct shown⟩
  · have distinct := @after_distinct platform scale batches
    generalize ProviderModel.after platform scale batches = model at distinct ⊢
    cases prepared : model.prepare platform scale batch with
    | error failure =>
      rw [ProviderModel.apply, prepared]
      refine ⟨⟨fun accepted => (nomatch accepted), ?_⟩, fun _ _ accepted => (nomatch accepted),
        fun _ _ => rfl⟩
      rintro ⟨nonzero, m, replays, servable⟩
      obtain ⟨next, accepted⟩ := prepare_accepts distinct nonzero replays servable
      cases prepared.symm.trans accepted
    | ok next =>
      obtain ⟨nonzero, _, m, replays, servable, shown⟩ := prepare_ok distinct prepared
      rw [ProviderModel.apply, prepared]
      refine ⟨⟨fun _ => ⟨nonzero, m, replays, servable⟩, fun _ => rfl⟩, fun other again _ => ?_,
        fun _ refused => nomatch refused⟩
      cases replays.symm.trans again
      exact shown

/-- A platform on which every coordinate is finite. -/
def unboundedPlatform : Win32Platform where
  isfinite _ := true

/-- An entry with the identity that the adapter keeps for its window. -/
def zeroEntry : SemanticsEntry :=
  ⟨0, none, 0, .text, "window", "", true, {}, [], false, false⟩

/-- A batch that can be replayed and comes to one entry that could be served, and that is
refused for the identity of the entry. -/
theorem zero_identity_refused : ∃ m,
    replay entryKeys (ProviderModel.after unboundedPlatform 1 []).mirror [.added zeroEntry] =
        some m ∧
      Servable unboundedPlatform 1 m ∧
      ((ProviderModel.after unboundedPlatform 1 []).apply unboundedPlatform 1
        [.added zeroEntry]).1 =
          .error (.invalidArgument "Win32 accessibility requires nonzero semantic IDs") := by
  have distinct : (⟨[⟨zeroEntry, []⟩], []⟩ : ProviderModel).Distinct := List.nodup_singleton _
  have rebuilt : rebuildHierarchy unboundedPlatform ⟨[⟨zeroEntry, []⟩], []⟩ =
      .ok ⟨[⟨zeroEntry, []⟩], [0]⟩ := by
    decide +kernel
  refine ⟨mirrorOf entryKeys [zeroEntry], ?_, ⟨(rebuild_ok distinct rebuilt).1, fun _ _ _ => rfl⟩,
    rfl⟩
  exact congrArg some (mirror_snoc (List.not_mem_nil : entryKeys.key zeroEntry ∉ [])).symm

end Dui
