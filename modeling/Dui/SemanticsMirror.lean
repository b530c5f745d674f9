import Dui.SemanticsDiffer

/-! What a consumer that replays the differ's changes holds. The differ's three
passes over the entries are the edit script of `ForestEdit`, so the mirror is
exact after every accepted tree and a forest after every single change. -/
namespace Dui
open ForestEdit

mutual
/-- The entries of a subtree in depth-first order, without any check. -/
def nodeEntries (parentId : Option Nat) (index : Nat) : SemanticsNode → List SemanticsEntry
  | ⟨id, role, label, value, enabled, bounds, actions, children, focusable, focused⟩ =>
    ⟨id, parentId, index, role, label, value, enabled, bounds, actions, focusable, focused⟩ ::
      siblingEntries (some id) 0 children
/-- The entries of consecutive siblings. -/
def siblingEntries (parentId : Option Nat) (index : Nat) :
    List SemanticsNode → List SemanticsEntry
  | [] => []
  | node :: rest => nodeEntries parentId index node ++ siblingEntries parentId (index + 1) rest
end

/-- The flattened entries of a tree: parent, sibling index and attributes. -/
def SemanticsTree.entries (tree : SemanticsTree) : List SemanticsEntry :=
  siblingEntries none 0 tree.roots

theorem node_entries_eq (parentId : Option Nat) (index : Nat) (node : SemanticsNode) :
    nodeEntries parentId index node =
      PendingNode.entry ⟨node, parentId, index⟩ :: siblingEntries (some node.id) 0 node.children := by
  cases node
  rfl

/-- The identities seen by the loop are those of the entries it has produced. -/
def Flattening.Tracked (done : Flattening) : Prop :=
  (done.next.map SemanticsEntry.id).Nodup ∧
    ∀ id, id ∈ done.ids ↔ id ∈ done.next.map SemanticsEntry.id

theorem visit_node_ok {current : PendingNode} {done result : Flattening}
    (visited : visitNode current done = .ok result) :
    current.node.id ∉ done.ids ∧ result.next = done.next ++ [current.entry] ∧
      result.ids = current.node.id :: done.ids := by
  simp only [visitNode] at visited
  split at visited
  · cases visited
  · rename_i unseen
    split at visited
    · cases visited
    · split at visited
      · cases visited
      · cases visited
        exact ⟨fun seen => unseen (Or.inr seen), rfl, rfl⟩

theorem visit_node_tracked {current : PendingNode} {done result : Flattening}
    (tracked : done.Tracked) (visited : visitNode current done = .ok result) : result.Tracked := by
  obtain ⟨unseen, next, ids⟩ := visit_node_ok visited
  have here : current.entry.id = current.node.id := rfl
  constructor
  · rw [next, List.map_append, List.nodup_append]
    refine ⟨tracked.1, by simp, ?_⟩
    rintro first member second single rfl
    obtain rfl : first = current.node.id := by simpa [here] using single
    exact unseen ((tracked.2 _).mpr member)
  · intro id
    simp only [ids, next, List.mem_cons, tracked.2, List.map_append, List.mem_append, List.map_cons,
      List.map_nil, here, List.not_mem_nil, or_false]
    exact Or.comm

/-- The loop finishes the top of the stack before it looks at the rest. -/
theorem flatten_loop_append (first second : List PendingNode) (done : Flattening) :
    flattenLoop (first ++ second) done = flattenLoop first done >>= flattenLoop second := by
  induction first, done using flattenLoop.induct with
  | case1 done => rw [List.nil_append, flattenLoop.eq_1]; rfl
  | case2 current pending done ih =>
    rw [List.cons_append, flattenLoop.eq_2, flattenLoop.eq_2]
    cases visitNode current done with
    | error failure => rfl
    | ok visited =>
      have step := ih visited
      simp only [List.append_assoc] at step
      exact step

private theorem flatten_loop_singleton (current : PendingNode) (done : Flattening) :
    flattenLoop [current] done =
      visitNode current done >>=
        flattenLoop (pendingNodes (some current.node.id) 0 current.node.children) := by
  rw [flattenLoop.eq_2, List.append_nil]

mutual
theorem flatten_node_entries : ∀ (node : SemanticsNode) (parentId : Option Nat) (index : Nat)
    (done result : Flattening), done.Tracked →
    flattenLoop [⟨node, parentId, index⟩] done = .ok result →
    result.next = done.next ++ nodeEntries parentId index node ∧ result.Tracked
  | ⟨id, role, label, value, enabled, bounds, actions, children, focusable, focused⟩,
    parentId, index, done, result, tracked, looped => by
    rw [flatten_loop_singleton] at looped
    cases visited : visitNode ⟨⟨id, role, label, value, enabled, bounds, actions, children,
        focusable, focused⟩, parentId, index⟩ done with
    | error failure => rw [visited] at looped; cases looped
    | ok middle =>
      rw [visited] at looped
      obtain ⟨entries, kept⟩ := flatten_sibling_entries children (some id) 0 middle result
        (visit_node_tracked tracked visited) looped
      refine ⟨?_, kept⟩
      rw [entries, (visit_node_ok visited).2.1, node_entries_eq, List.append_assoc]
      rfl
theorem flatten_sibling_entries : ∀ (nodes : List SemanticsNode) (parentId : Option Nat)
    (index : Nat) (done result : Flattening), done.Tracked →
    flattenLoop (pendingNodes parentId index nodes) done = .ok result →
    result.next = done.next ++ siblingEntries parentId index nodes ∧ result.Tracked
  | [], parentId, index, done, result, tracked, looped => by
    rw [pendingNodes, flattenLoop.eq_1] at looped
    cases looped
    exact ⟨by simp [siblingEntries], tracked⟩
  | node :: rest, parentId, index, done, result, tracked, looped => by
    rw [pendingNodes, ← List.singleton_append, flatten_loop_append] at looped
    cases first : flattenLoop [⟨node, parentId, index⟩] done with
    | error failure => rw [first] at looped; cases looped
    | ok middle =>
      rw [first] at looped
      obtain ⟨head, kept⟩ := flatten_node_entries node parentId index done middle tracked first
      obtain ⟨tail, kept⟩ :=
        flatten_sibling_entries rest parentId (index + 1) middle result kept looped
      exact ⟨by rw [tail, head, siblingEntries, List.append_assoc], kept⟩
end

mutual
theorem node_entries_parents_first : ∀ (node : SemanticsNode) (parentId : Option Nat) (index : Nat)
    (seen : List Nat), (∀ p, parentId = some p → p ∈ seen) →
    ParentsFirst entryKeys seen (nodeEntries parentId index node)
  | ⟨id, role, label, value, enabled, bounds, actions, children, focusable, focused⟩,
    parentId, index, seen, named => by
    rw [node_entries_eq]
    exact ⟨named, sibling_entries_parents_first children (some id) 0 _
      (fun p same => by cases same; exact List.mem_cons_self)⟩
theorem sibling_entries_parents_first : ∀ (nodes : List SemanticsNode) (parentId : Option Nat)
    (index : Nat) (seen : List Nat), (∀ p, parentId = some p → p ∈ seen) →
    ParentsFirst entryKeys seen (siblingEntries parentId index nodes)
  | [], _, _, _, _ => trivial
  | node :: rest, parentId, index, seen, named => by
    rw [siblingEntries, parents_first_append]
    exact ⟨node_entries_parents_first node parentId index seen named,
      sibling_entries_parents_first rest parentId (index + 1) _
        (fun p same => List.mem_append_right _ (named p same))⟩
end

/-- An accepted tree flattens to its entries, with distinct identities and
parents before children. -/
theorem flatten_tree_ok {tree : SemanticsTree} {next : List SemanticsEntry}
    (flattened : flattenTree tree = .ok next) : next = tree.entries ∧ Ordered entryKeys next := by
  simp only [flattenTree] at flattened
  cases looped : flattenLoop (pendingNodes none 0 tree.roots) {} with
  | error failure => rw [looped] at flattened; cases flattened
  | ok result =>
    rw [looped] at flattened
    cases flattened
    have start : Flattening.Tracked {} := ⟨List.nodup_nil, fun id => by simp⟩
    obtain ⟨entries, kept⟩ := flatten_sibling_entries tree.roots none 0 {} result start looped
    rw [List.nil_append] at entries
    refine ⟨entries, kept.1, ?_⟩
    rw [entries]
    exact sibling_entries_parents_first tree.roots none 0 [] (fun p same => by cases same)

/-- The differ's additions, updates and removals are the forest edit script. -/
theorem update_eq_script (differ : SemanticsDiffer) {tree : SemanticsTree}
    {next : List SemanticsEntry} (flattened : flattenTree tree = .ok next) :
    differ.update tree =
      if (script entryKeys differ.entries next).isEmpty then (.ok [], differ)
      else (.ok (script entryKeys differ.entries next), ⟨next⟩) := by
  have removals : (differ.entries.reverse.filter fun entry => entry.id ∉ next.map SemanticsEntry.id) =
      gone entryKeys differ.entries next := by
    refine List.filter_congr fun entry _ => ?_
    rw [Bool.eq_iff_iff, decide_eq_true_iff, Option.isNone_iff_eq_none, mirror_of_none]
    rfl
  simp only [SemanticsDiffer.update, flattened, removals]
  rfl

/-- A script is about entries from before and after. -/
theorem script_names {previous next : List SemanticsEntry} {change : SemanticsChange}
    (listed : change ∈ script entryKeys previous next) :
    change.entry ∈ previous ∨ change.entry ∈ next := by
  simp only [script, List.mem_append, List.mem_map] at listed
  rcases listed with (⟨entry, among, rfl⟩ | ⟨entry, among, rfl⟩) | ⟨entry, among, rfl⟩
  · exact Or.inr (List.mem_of_mem_filter among)
  · exact Or.inr (List.mem_of_mem_filter among)
  · exact Or.inl (List.mem_reverse.mp (List.mem_of_mem_filter among))

/-- A differ turns into another by what it emits. -/
structure SemanticsDiffer.Emits (differ next : SemanticsDiffer) (update : SemanticsUpdate) :
    Prop where
  ordered : Ordered entryKeys next.entries
  named : ∀ change ∈ update, change.entry ∈ differ.entries ∨ change.entry ∈ next.entries
  replayed : replay entryKeys (mirrorOf entryKeys differ.entries) update =
    some (mirrorOf entryKeys next.entries)

theorem update_emits {differ next : SemanticsDiffer} {tree : SemanticsTree}
    {update : SemanticsUpdate} (ordered : Ordered entryKeys differ.entries)
    (updated : differ.update tree = (.ok update, next)) : differ.Emits next update := by
  cases flattened : flattenTree tree with
  | error failure =>
    rw [SemanticsDiffer.update, flattened] at updated
    cases updated
  | ok entries =>
    have after := (flatten_tree_ok flattened).2
    have replayed := script_replay ordered after
    rw [update_eq_script differ flattened] at updated
    split at updated
    · cases updated
      exact ⟨ordered, fun change listed => absurd listed List.not_mem_nil, rfl⟩
    · cases updated
      exact ⟨after, fun change listed => script_names listed, replayed⟩

theorem clear_emits {differ : SemanticsDiffer} (ordered : Ordered entryKeys differ.entries) :
    differ.Emits differ.clear.2 differ.clear.1 := by
  have empty : Ordered entryKeys ([] : List SemanticsEntry) := ⟨List.nodup_nil, trivial⟩
  have removals : script entryKeys differ.entries [] = differ.entries.reverse.map .removed := by
    have kept : gone entryKeys differ.entries [] = differ.entries.reverse :=
      List.filter_eq_self.mpr fun entry _ => rfl
    rw [script, kept]
    rfl
  have replayed := script_replay ordered empty
  rw [removals] at replayed
  refine ⟨empty, fun change listed => ?_, replayed⟩
  rw [SemanticsDiffer.clear, ← removals] at listed
  exact script_names listed

/-- A call on a differ. -/
inductive DifferCall where
  | update (tree : SemanticsTree)
  | clear

/-- A differ in use: everything it has emitted, and the tree it last accepted. -/
structure DifferRun where
  differ : SemanticsDiffer := {}
  emitted : List SemanticsChange := []
  shown : SemanticsTree := {}

def DifferRun.step (run : DifferRun) : DifferCall → DifferRun
  | .update tree =>
    match run.differ.update tree with
    | (.ok changes, differ) => ⟨differ, run.emitted ++ changes, tree⟩
    | (.error _, differ) => ⟨differ, run.emitted, run.shown⟩
  | .clear => ⟨run.differ.clear.2, run.emitted ++ run.differ.clear.1, {}⟩

/-- The run that makes these calls on a fresh differ. -/
def DifferRun.after (calls : List DifferCall) : DifferRun := calls.foldl DifferRun.step {}

/-- Replaying what was emitted, from nothing. -/
def mirrorAfter (changes : List SemanticsChange) : Option (Mirror Nat SemanticsEntry) :=
  replay entryKeys (fun _ => none) changes

/-- The differ's entries are those of the tree it shows, its emissions replay to
their mirror, and every prefix of the emissions leaves a forest. -/
structure DifferRun.Exact (run : DifferRun) : Prop where
  ordered : Ordered entryKeys run.differ.entries
  ordered_shown : Ordered entryKeys run.shown.entries
  accepted : flattenTree run.shown = .ok run.shown.entries
  same : mirrorOf entryKeys run.differ.entries = mirrorOf entryKeys run.shown.entries
  replayed : mirrorAfter run.emitted = some (mirrorOf entryKeys run.differ.entries)
  forests : ∀ changes, changes <+: run.emitted →
    ∃ m, mirrorAfter changes = some m ∧ Forest entryKeys m

private theorem ordered_nil : Ordered entryKeys [] := ⟨List.nodup_nil, trivial⟩

private theorem empty_accepted : flattenTree {} = .ok (SemanticsTree.entries {}) := by
  simp [flattenTree, pendingNodes, flattenLoop.eq_1, SemanticsTree.entries, siblingEntries]
  rfl

/-- Emitting a script to the entries of a new tree keeps the run exact. -/
theorem DifferRun.Exact.emit {run : DifferRun} (exact : run.Exact) {tree : SemanticsTree}
    {next : List SemanticsEntry} (accepted : flattenTree tree = .ok next) :
    DifferRun.Exact ⟨⟨next⟩, run.emitted ++ script entryKeys run.differ.entries next, tree⟩ := by
  obtain ⟨rfl, ordered⟩ := flatten_tree_ok accepted
  refine ⟨ordered, ordered, accepted, rfl, ?_, ?_⟩
  · rw [mirrorAfter, replay_append, ← mirrorAfter, exact.replayed, Option.bind_some]
    exact script_replay exact.ordered ordered
  · intro changes front
    obtain ⟨rest, split⟩ := front
    obtain ⟨later, emitted, _⟩ | ⟨batch, rfl, tail⟩ := List.append_eq_append_iff.mp split
    · exact exact.forests changes ⟨later, emitted.symm⟩
    · rw [mirrorAfter, replay_append, ← mirrorAfter, exact.replayed, Option.bind_some]
      exact script_prefix_forest exact.ordered ordered ⟨rest, tail.symm⟩

theorem DifferRun.Exact.step {run : DifferRun} (exact : run.Exact) (call : DifferCall) :
    (run.step call).Exact := by
  cases call with
  | clear =>
    have emptied := exact.emit empty_accepted
    have removals : script entryKeys run.differ.entries (SemanticsTree.entries {}) =
        run.differ.entries.reverse.map .removed := by
      have kept : gone entryKeys run.differ.entries (SemanticsTree.entries {}) =
          run.differ.entries.reverse :=
        List.filter_eq_self.mpr fun e _ => rfl
      rw [script, kept]
      rfl
    rw [removals] at emptied
    exact emptied
  | update tree =>
    cases flattened : flattenTree tree with
    | error failure => simpa [DifferRun.step, SemanticsDiffer.update, flattened] using exact
    | ok next =>
      have emitted := exact.emit flattened
      simp only [DifferRun.step, update_eq_script _ flattened]
      by_cases quiet : (script entryKeys run.differ.entries next).isEmpty
      · -- Nothing differs, so the entries kept have the mirror of the new tree.
        rw [if_pos quiet]
        obtain ⟨rfl, ordered⟩ := flatten_tree_ok flattened
        rw [List.isEmpty_iff] at quiet
        have unchanged := script_replay exact.ordered ordered
        rw [quiet, replay] at unchanged
        refine ⟨exact.ordered, ordered, flattened, Option.some.inj unchanged, ?_, ?_⟩
        · simpa using exact.replayed
        · simpa using exact.forests
      · rw [if_neg quiet]
        exact emitted

theorem differ_run_exact (calls : List DifferCall) : (DifferRun.after calls).Exact := by
  have start : DifferRun.Exact {} :=
    ⟨ordered_nil, ordered_nil, empty_accepted, rfl, rfl, fun changes front => by
      obtain rfl := List.prefix_nil.mp front
      exact ⟨_, rfl, (fun _ _ held => by cases held), (fun _ _ ⟨_, held, _⟩ => by cases held),
        fun x path => by
          obtain ⟨y, ⟨_, held, _⟩, _⟩ := Relation.TransGen.head'_iff.mp path
          cases held⟩⟩
  exact List.foldlRecOn calls DifferRun.step start fun run exact call _ => exact.step call

/-- A mirror that replays everything a differ emits holds exactly the entries of
the tree last accepted, and is a forest after every single change; replaying is
never undefined. A rejected tree changes nothing, and neither does a tree equal
to the one shown. -/
theorem differ_keeps_mirror_exact (calls : List DifferCall) :
    mirrorAfter (DifferRun.after calls).emitted =
        some (mirrorOf entryKeys (DifferRun.after calls).shown.entries) ∧
      (∀ changes, changes <+: (DifferRun.after calls).emitted →
        ∃ m, mirrorAfter changes = some m ∧ Forest entryKeys m) ∧
      (∀ tree failure, ((DifferRun.after calls).differ.update tree).1 = .error failure →
        ((DifferRun.after calls).differ.update tree).2 = (DifferRun.after calls).differ) ∧
      ((DifferRun.after calls).differ.update (DifferRun.after calls).shown).1 = .ok [] := by
  have exact := differ_run_exact calls
  refine ⟨by rw [exact.replayed, exact.same], exact.forests, ?_, ?_⟩
  · intro tree failure rejected
    cases flattened : flattenTree tree with
    | error failure => simp [SemanticsDiffer.update, flattened]
    | ok next =>
      rw [update_eq_script _ flattened] at rejected
      split at rejected <;> cases rejected
  · have quiet := script_of_same exact.ordered.nodup exact.ordered_shown.nodup exact.same
    rw [update_eq_script _ exact.accepted, quiet]
    rfl

end Dui
