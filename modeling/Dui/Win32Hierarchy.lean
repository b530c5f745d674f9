import Dui.RootedForest
import Dui.SemanticsAcceptance
import Dui.Win32Accessibility

/-! What the Win32 adapter accepts: a batch is accepted exactly if it can be replayed and
comes to entries that can be presented, and then the adapter's lists are the hierarchy those
entries tell. -/
namespace Dui
open ForestEdit

/-! Lists of entries edited as their mirrors are. -/

section Lists
variable {κ ε : Type*} [DecidableEq κ] {k : Keyed κ ε} {entries : List ε} {e : ε}

theorem mirror_snoc (absent : k.key e ∉ entries.map k.key) :
    mirrorOf k (entries ++ [e]) = Function.update (mirrorOf k entries) (k.key e) (some e) := by
  funext x
  by_cases same : x = k.key e
  · subst same
    have missing := mirror_of_none.mpr absent
    simp only [mirrorOf] at missing
    simp [mirrorOf, List.find?_append, missing]
  · simp [mirrorOf, List.find?_append, same, Ne.symm same]

theorem mirror_erase : mirrorOf k (entries.filter fun other => k.key other ≠ k.key e) =
    Function.update (mirrorOf k entries) (k.key e) none := by
  funext x
  by_cases same : x = k.key e
  · subst same
    rw [Function.update_self, mirror_of_none, List.mem_map]
    rintro ⟨other, listed, here⟩
    simpa [here] using List.of_mem_filter listed
  · rw [Function.update_of_ne same]
    induction entries with
    | nil => rfl
    | cons first rest ih =>
      simp only [mirrorOf] at ih ⊢
      by_cases here : k.key first = x
      · subst here
        rw [List.filter_cons_of_pos (by simpa using same)]
        simp
      · by_cases kept : k.key first = k.key e
        · rw [List.filter_cons_of_neg (by simpa using kept), ih,
            List.find?_cons_of_neg (by simpa using here)]
        · rw [List.filter_cons_of_pos (by simpa using kept),
            List.find?_cons_of_neg (by simpa using here),
            List.find?_cons_of_neg (by simpa using here), ih]

theorem mirror_replace (present : k.key e ∈ entries.map k.key) :
    mirrorOf k (entries.map fun other => if k.key other = k.key e then e else other) =
      Function.update (mirrorOf k entries) (k.key e) (some e) := by
  funext x
  have keys : ∀ other : ε, k.key (if k.key other = k.key e then e else other) = k.key other := by
    intro other
    split
    · exact ‹k.key other = k.key e›.symm
    · rfl
  by_cases same : x = k.key e
  · subst same
    rw [Function.update_self]
    induction entries with
    | nil => cases present
    | cons first rest ih =>
      simp only [mirrorOf, List.map_cons] at ih ⊢
      by_cases here : k.key first = k.key e
      · simp [here]
      · rw [List.find?_cons_of_neg (by simpa [keys] using here)]
        rw [List.map_cons, List.mem_cons] at present
        exact ih (present.resolve_left (Ne.symm here))
  · rw [Function.update_of_ne same]
    clear present
    induction entries with
    | nil => rfl
    | cons first rest ih =>
      simp only [mirrorOf, List.map_cons] at ih ⊢
      by_cases here : k.key first = x
      · subst here
        simp [same]
      · rw [List.find?_cons_of_neg (by simpa [keys] using here),
          List.find?_cons_of_neg (by simpa using here), ih]

end Lists

/-! Replaying a batch. -/

namespace ProviderModel
variable {model next : ProviderModel}

/-- What the nodes of the adapter say. -/
def mirror (model : ProviderModel) : Mirror Nat SemanticsEntry :=
  mirrorOf entryKeys (model.nodes.map (·.entry))

/-- No identity is served twice. -/
def Distinct (model : ProviderModel) : Prop := (model.nodes.map (·.entry.id)).Nodup

theorem mirror_find (model : ProviderModel) (id : Nat) :
    model.mirror id = (model.find id).map (·.entry) := List.find?_map

theorem mirror_isNone (model : ProviderModel) (id : Nat) :
    (model.find id).isNone = (model.mirror id).isNone := by
  rw [mirror_find, Option.isNone_map]

theorem distinct_iff : model.Distinct ↔ ((model.nodes.map (·.entry)).map entryKeys.key).Nodup := by
  rw [Distinct, List.map_map]
  rfl

/-- A change is applied as to a mirror, unless it is refused. -/
theorem apply_change_ok (distinct : model.Distinct) {change : SemanticsChange}
    (applied : model.applyChange change = .ok next) :
    change.entry.id ≠ 0 ∧ next.Distinct ∧
      ForestEdit.applyChange entryKeys model.mirror change = some next.mirror := by
  unfold applyChange at applied
  split at applied
  · cases applied
  · rename_i nonzero
    refine ⟨nonzero, ?_⟩
    cases change with
    | added entry =>
      dsimp only at applied
      split at applied
      · cases applied
      · rename_i fresh
        cases applied
        have absent : model.mirror entry.id = none := by
          simpa [mirror_find] using fresh
        have missing : entryKeys.key entry ∉ (model.nodes.map (·.entry)).map entryKeys.key :=
          mirror_of_none.mp absent
        refine ⟨?_, ?_⟩
        · rw [distinct_iff, List.map_append, List.map_append, List.nodup_append]
          refine ⟨distinct_iff.mp distinct, List.nodup_singleton _, ?_⟩
          rintro id listed _ (single : _ ∈ [_]) rfl
          cases List.mem_singleton.mp single
          exact missing listed
        · have snoc := mirror_snoc missing
          have free : (model.mirror (entryKeys.key entry)).isNone := by
            rw [show entryKeys.key entry = entry.id from rfl, absent]
            rfl
          rw [ForestEdit.applyChange, if_pos free, mirror, mirror, List.map_append]
          exact congrArg some snoc.symm
    | updated entry =>
      dsimp only at applied
      split at applied
      · cases applied
      · rename_i found
        cases applied
        have there : (model.mirror (entryKeys.key entry)).isSome := by
          rw [mirror_isNone] at found
          exact Option.isSome_iff_ne_none.mpr (mt Option.isNone_iff_eq_none.mpr found)
        have present := mirror_of_isSome.mp there
        have edited : ((model.updateNode entry.id fun node => { node with entry }).nodes.map
            (·.entry)) = (model.nodes.map (·.entry)).map fun other =>
              if entryKeys.key other = entryKeys.key entry then entry else other := by
          rw [updateNode, List.map_map, List.map_map]
          refine List.map_congr_left fun node _ => ?_
          simp only [Function.comp_apply]
          split
          · rw [if_pos ‹_›]
          · rw [if_neg ‹_›]
        refine ⟨?_, ?_⟩
        · rw [distinct_iff, edited, List.map_map]
          have keys : ((entryKeys.key : SemanticsEntry → Nat) ∘ fun other =>
              if entryKeys.key other = entryKeys.key entry then entry else other) =
              entryKeys.key := by
            funext other
            simp only [Function.comp_apply]
            split
            · exact ‹entryKeys.key other = entryKeys.key entry›.symm
            · rfl
          rw [keys]
          exact distinct_iff.mp distinct
        · rw [ForestEdit.applyChange, if_pos there, mirror, ← mirror_replace present, ← edited]
          rfl
    | removed entry =>
      dsimp only at applied
      split at applied
      · cases applied
      · rename_i found
        cases applied
        have there : (model.mirror (entryKeys.key entry)).isSome := by
          rw [mirror_isNone] at found
          exact Option.isSome_iff_ne_none.mpr (mt Option.isNone_iff_eq_none.mpr found)
        have edited : ((model.nodes.filter fun node => node.entry.id ≠ entry.id).map (·.entry)) =
            (model.nodes.map (·.entry)).filter fun other =>
              entryKeys.key other ≠ entryKeys.key entry := by
          rw [List.filter_map]
          rfl
        refine ⟨?_, ?_⟩
        · rw [distinct_iff, edited]
          exact (distinct_iff.mp distinct).sublist (List.filter_sublist.map _)
        · rw [ForestEdit.applyChange, if_pos there, mirror, ← mirror_erase, ← edited]
          rfl

theorem apply_change_error {change : SemanticsChange} {failure : Failure}
    (refused : model.applyChange change = .error failure) :
    change.entry.id = 0 ∨ ForestEdit.applyChange entryKeys model.mirror change = none := by
  unfold applyChange at refused
  split at refused
  · exact Or.inl ‹_›
  · refine Or.inr ?_
    cases change with
    | added entry =>
      dsimp only at refused
      split at refused
      · rename_i found
        refine if_neg ?_
        rw [show entryKeys.key entry = entry.id from rfl, ← mirror_isNone]
        simpa [Option.isSome_iff_ne_none] using found
      · cases refused
    | updated entry =>
      dsimp only at refused
      split at refused
      · rename_i missing
        refine if_neg ?_
        rw [mirror_isNone] at missing
        rw [show entryKeys.key entry = entry.id from rfl]
        simpa using missing
      · cases refused
    | removed entry =>
      dsimp only at refused
      split at refused
      · rename_i missing
        refine if_neg ?_
        rw [mirror_isNone] at missing
        rw [show entryKeys.key entry = entry.id from rfl]
        simpa using missing
      · cases refused

/-- A batch is applied to the copy exactly if it can be replayed and names no identity zero. -/
theorem apply_changes_ok (changes : List SemanticsChange) : ∀ model : ProviderModel,
    model.Distinct → ∀ next, applyChanges changes model = .ok next →
      (∀ change ∈ changes, change.entry.id ≠ 0) ∧ next.Distinct ∧
        replay entryKeys model.mirror changes = some next.mirror := by
  induction changes with
  | nil =>
    intro model distinct next applied
    cases applied
    exact ⟨fun change listed => absurd listed List.not_mem_nil, distinct, rfl⟩
  | cons change rest ih =>
    intro model distinct next applied
    rw [applyChanges] at applied
    cases first : model.applyChange change with
    | error failure =>
      rw [first] at applied
      cases applied
    | ok middle =>
      rw [first] at applied
      obtain ⟨nonzero, distinct, same⟩ := apply_change_ok distinct first
      obtain ⟨others, distinct, replayed⟩ := ih middle distinct next applied
      refine ⟨List.forall_mem_cons.mpr ⟨nonzero, others⟩, distinct, ?_⟩
      rw [replay, same, Option.bind_some, replayed]

theorem apply_changes_accepts (changes : List SemanticsChange) : ∀ model : ProviderModel,
    model.Distinct → ∀ m, (∀ change ∈ changes, change.entry.id ≠ 0) →
      replay entryKeys model.mirror changes = some m →
      ∃ next, applyChanges changes model = .ok next := by
  induction changes with
  | nil => exact fun model _ _ _ _ => ⟨model, rfl⟩
  | cons change rest ih =>
    intro model distinct m nonzero replayed
    obtain ⟨here, others⟩ := List.forall_mem_cons.mp nonzero
    rw [replay] at replayed
    obtain ⟨middle, same, replayed⟩ := Option.bind_eq_some_iff.mp replayed
    cases first : model.applyChange change with
    | error failure =>
      rcases apply_change_error first with zero | undefined
      · exact absurd zero here
      · cases same.symm.trans undefined
    | ok after =>
      obtain ⟨_, distinct, exact⟩ := apply_change_ok distinct first
      cases same.symm.trans exact
      obtain ⟨next, applied⟩ := ih after distinct m others replayed
      refine ⟨next, ?_⟩
      rw [applyChanges, first]
      exact applied

end ProviderModel

/-! Rebuilding the hierarchy. -/

/-- The walk to the root ends exactly if the climb does. -/
theorem ascend_ok_iff (model : ProviderModel) (left : Nat) : ∀ id,
    ascend model left id = .ok () ↔ climb entryKeys model.mirror left id = true := by
  induction left with
  | zero =>
    intro id
    rw [ascend, climb, model.mirror_find]
    cases model.find id with
    | none => simp [throw, throwThe, MonadExceptOf.throw]
    | some node =>
      cases up : node.entry.parentId with
      | none => simp [entryKeys, up, pure, Except.pure]
      | some parent => simp [entryKeys, up, throw, throwThe, MonadExceptOf.throw]
  | succ left ih =>
    intro id
    rw [ascend, climb, model.mirror_find]
    cases model.find id with
    | none => simp [throw, throwThe, MonadExceptOf.throw]
    | some node =>
      cases up : node.entry.parentId with
      | none => simp [entryKeys, up, pure, Except.pure]
      | some parent => simpa [entryKeys, up] using ih parent

/-- The identities of the entries below a parent, in the order of the list. -/
def childIds (entries : List SemanticsEntry) (parent : Option Nat) : List Nat :=
  (entries.filter fun entry => entry.parentId = parent).map (·.id)

/-- The nodes once these entries have been linked. -/
def attach (base : List NativeNode) (linked : List SemanticsEntry) : ProviderModel :=
  ⟨base.map fun node => { node with children := childIds linked (some node.entry.id) },
    childIds linked none⟩

section Linked
variable (platform : Win32Platform) (base : List NativeNode)

/-- What is checked of an entry by itself when it is linked. -/
structure Linkable (m : Mirror Nat SemanticsEntry) (steps : Nat) (entry : SemanticsEntry) :
    Prop where
  bounds : validRect platform entry.bounds = true
  focused : entry.focused = true → entry.focusable = true ∧ entry.enabled = true
  actions : entry.focusable = entry.actions.contains .focus
  parent : ∀ parent, entry.parentId = some parent → (m parent).isSome ∧ parent ≠ entry.id
  climbs : climb entryKeys m steps entry.id = true

@[simp] theorem attach_mirror (linked : List SemanticsEntry) :
    (attach base linked).mirror = mirrorOf entryKeys (base.map (·.entry)) := by
  rw [ProviderModel.mirror, attach, List.map_map]
  rfl

theorem child_ids_snoc (linked : List SemanticsEntry) (entry : SemanticsEntry)
    (parent : Option Nat) : childIds (linked ++ [entry]) parent =
      childIds linked parent ++ if entry.parentId = parent then [entry.id] else [] := by
  unfold childIds
  rw [List.filter_append, List.map_append]
  split
  · simp [*]
  · simp [*]

/-- Linking one more entry. -/
theorem link_ok_iff (linked : List SemanticsEntry) (entry : SemanticsEntry)
    {next : ProviderModel} : (attach base linked).link entry = .ok next ↔
      (∀ parent, entry.parentId = some parent →
        (mirrorOf entryKeys (base.map (·.entry)) parent).isSome ∧ parent ≠ entry.id) ∧
        next = attach base (linked ++ [entry]) := by
  unfold ProviderModel.link
  cases up : entry.parentId with
  | none =>
    have snoc : attach base (linked ++ [entry]) =
        { attach base linked with roots := (attach base linked).roots ++ [entry.id] } := by
      simp [attach, child_ids_snoc, up]
    rw [snoc]
    constructor
    · intro same
      cases same
      apply And.intro _ rfl
      intro parent named
      cases named
    · rintro ⟨_, rfl⟩
      rfl
  | some parent =>
    have snoc : attach base (linked ++ [entry]) = (attach base linked).updateNode parent
        fun node => { node with children := node.children ++ [entry.id] } := by
      simp only [attach, ProviderModel.updateNode, child_ids_snoc, up, List.map_map,
        ProviderModel.mk.injEq, reduceCtorEq, if_false, List.append_nil, and_true]
      refine List.map_congr_left fun node _ => ?_
      simp only [Function.comp_apply, Option.some.injEq]
      by_cases here : parent = node.entry.id
      · simp [here]
      · simp [here, Ne.symm here]
    dsimp only
    rw [ProviderModel.mirror_isNone, attach_mirror, snoc]
    split
    · rename_i wrong
      constructor
      · intro same
        cases same
      rintro ⟨right, _⟩
      obtain ⟨there, apart⟩ := right parent rfl
      rcases wrong with absent | self
      · rw [Option.isNone_iff_eq_none] at absent
        rw [absent] at there
        cases there
      · exact absurd self apart
    · rename_i right
      rw [not_or] at right
      constructor
      · intro same
        cases same
        refine ⟨fun other named => ?_, rfl⟩
        cases named
        exact ⟨Option.isSome_iff_ne_none.mpr (mt Option.isNone_iff_eq_none.mpr right.1), right.2⟩
      · rintro ⟨_, rfl⟩
        rfl

theorem link_node_ok_iff (linked : List SemanticsEntry) (focused : Bool) (entry : SemanticsEntry)
    {next : Linking} : linkNode platform entry ⟨attach base linked, focused⟩ = .ok next ↔
      Linkable platform (mirrorOf entryKeys (base.map (·.entry))) base.length entry ∧
        (entry.focused = true → focused = false) ∧
        next = ⟨attach base (linked ++ [entry]), focused || entry.focused⟩ := by
  have length : (attach base (linked ++ [entry])).nodes.length = base.length := by
    simp [attach]
  constructor
  · intro ran
    unfold linkNode at ran
    split at ran
    · cases ran
    · rename_i bounds
      split at ran
      · cases ran
      · rename_i focus
        split at ran
        · cases ran
        · rename_i actions
          cases done : (attach base linked).link entry with
          | error failure =>
            rw [done] at ran
            cases ran
          | ok model =>
            rw [done] at ran
            obtain ⟨parent, rfl⟩ := (link_ok_iff base linked entry).mp done
            simp only [bind, Except.bind, length] at ran
            cases climbed : ascend (attach base (linked ++ [entry])) base.length entry.id with
            | error failure =>
              rw [climbed] at ran
              cases ran
            | ok =>
              rw [climbed] at ran
              cases ran
              rw [ascend_ok_iff, attach_mirror] at climbed
              have alone : entry.focused = true → entry.focusable = true ∧
                  entry.enabled = true ∧ focused = false := by
                intro held
                simpa [held] using focus
              exact ⟨⟨by simpa using bounds, fun held => ⟨(alone held).1, (alone held).2.1⟩,
                not_not.mp actions, parent, climbed⟩, fun held => (alone held).2.2, rfl⟩
  · rintro ⟨linkable, alone, rfl⟩
    have focus : ¬(entry.focused = true ∧ (¬entry.focusable = true ∨ ¬entry.enabled = true ∨
        focused = true)) := by
      rintro ⟨held, wrong⟩
      simp [linkable.focused held, alone held] at wrong
    have climbed : ascend (attach base (linked ++ [entry])) base.length entry.id = .ok () := by
      rw [ascend_ok_iff, attach_mirror]
      exact linkable.climbs
    unfold linkNode
    rw [if_neg (by simp [linkable.bounds]), if_neg focus, if_neg (not_not.mpr linkable.actions),
      (link_ok_iff base linked entry).mpr ⟨linkable.parent, rfl⟩]
    simp only [bind, Except.bind, length, climbed]
    rfl

/-- The first loop succeeds exactly if every entry can be linked and at most one is focused. -/
theorem link_nodes_ok_iff (entries : List SemanticsEntry) : ∀ linked focused {next : Linking},
    linkNodes platform entries ⟨attach base linked, focused⟩ = .ok next ↔
      (∀ entry ∈ entries,
        Linkable platform (mirrorOf entryKeys (base.map (·.entry))) base.length entry) ∧
        entries.countP (·.focused) + focused.toNat ≤ 1 ∧
        next = ⟨attach base (linked ++ entries), focused || entries.any (·.focused)⟩ := by
  induction entries with
  | nil =>
    intro linked focused next
    have few : focused.toNat ≤ 1 := Bool.toNat_le _
    simp [linkNodes, pure, Except.pure, few, eq_comm]
  | cons entry rest ih =>
    intro linked focused next
    have split : linkNodes platform (entry :: rest) ⟨attach base linked, focused⟩ = .ok next ↔
        ∃ middle, linkNode platform entry ⟨attach base linked, focused⟩ = .ok middle ∧
          linkNodes platform rest middle = .ok next := by
      rw [linkNodes]
      cases linkNode platform entry ⟨attach base linked, focused⟩ with
      | error failure => simp [bind, Except.bind]
      | ok middle => simp [bind, Except.bind]
    have count : (entry :: rest).countP (·.focused) + focused.toNat ≤ 1 ↔
        (entry.focused = true → focused = false) ∧
          rest.countP (·.focused) + (focused || entry.focused).toNat ≤ 1 := by
      rw [List.countP_cons]
      cases entry.focused with
      | false => simp
      | true =>
        cases focused with
        | false => simp
        | true => simp
    have result : (⟨attach base ((linked ++ [entry]) ++ rest),
        (focused || entry.focused) || rest.any (·.focused)⟩ : Linking) =
        ⟨attach base (linked ++ entry :: rest), focused || (entry :: rest).any (·.focused)⟩ := by
      rw [List.append_assoc, List.singleton_append, List.any_cons, Bool.or_assoc]
    rw [split, List.forall_mem_cons, count, ← result]
    simp only [link_node_ok_iff]
    constructor
    · rintro ⟨middle, ⟨linkable, alone, rfl⟩, visited⟩
      obtain ⟨others, few, same⟩ := (ih _ _).mp visited
      exact ⟨⟨linkable, others⟩, ⟨alone, few⟩, same⟩
    · rintro ⟨⟨linkable, others⟩, ⟨alone, few⟩, same⟩
      exact ⟨_, ⟨linkable, alone, rfl⟩, (ih _ _).mpr ⟨others, few, same⟩⟩

end Linked

/-! Sorting the children. -/

section Sorted
variable {model : ProviderModel} {children sorted : List Nat}

theorem sort_children_ok (accepted : model.sortChildren children = .ok sorted) :
    sorted.Perm children ∧ sorted.map model.childIndexOf = List.range sorted.length := by
  unfold ProviderModel.sortChildren at accepted
  dsimp only at accepted
  split at accepted
  · rename_i contiguous
    cases accepted
    exact ⟨List.perm_insertionSort _ _, contiguous⟩
  · cases accepted

theorem sort_children_accepts (same : sorted.Perm children)
    (contiguous : sorted.map model.childIndexOf = List.range sorted.length) :
    model.sortChildren children = .ok sorted := by
  have increasing : sorted.Pairwise fun first second =>
      model.childIndexOf first < model.childIndexOf second := by
    rw [← List.pairwise_map (R := (· < ·)), contiguous]
    exact List.pairwise_lt_range
  have result : children.insertionSort (fun first second =>
      model.childIndexOf first ≤ model.childIndexOf second) = sorted := by
    have ordered : (children.insertionSort fun first second =>
        model.childIndexOf first ≤ model.childIndexOf second).Pairwise fun first second =>
          model.childIndexOf first ≤ model.childIndexOf second := by
      have : IsTrans Nat fun first second =>
          model.childIndexOf first ≤ model.childIndexOf second := ⟨fun _ _ _ => le_trans⟩
      have : Std.Total fun first second =>
          model.childIndexOf first ≤ model.childIndexOf second := ⟨fun _ _ => le_total _ _⟩
      exact List.pairwise_insertionSort _ _
    refine ((List.perm_insertionSort _ _).trans same.symm).eq_of_pairwise
      (fun first second listed among below above => ?_) ordered (increasing.imp le_of_lt)
    have injective := List.inj_on_of_nodup_map (f := model.childIndexOf)
      (contiguous ▸ List.nodup_range)
    exact injective (((List.perm_insertionSort _ _).trans same.symm).mem_iff.mp listed) among
      (le_antisymm below above)
  unfold ProviderModel.sortChildren
  rw [result, if_pos contiguous]
  rfl

theorem sort_nodes_ok (nodes : List NativeNode) : ∀ after, model.sortNodes nodes = .ok after →
    List.Forall₂ (fun before after => after.entry = before.entry ∧
      model.sortChildren before.children = .ok after.children) nodes after := by
  induction nodes with
  | nil =>
    intro after done
    cases done
    exact .nil
  | cons node rest ih =>
    intro after done
    rw [ProviderModel.sortNodes] at done
    cases first : model.sortChildren node.children with
    | error failure =>
      rw [first] at done
      cases done
    | ok children =>
      rw [first] at done
      cases others : model.sortNodes rest with
      | error failure =>
        simp only [bind, Except.bind, others] at done
        cases done
      | ok sorted =>
        simp only [bind, Except.bind, others] at done
        cases done
        exact .cons ⟨rfl, first⟩ (ih sorted others)

theorem sort_nodes_accepts (nodes : List NativeNode)
    (each : ∀ node ∈ nodes, ∃ sorted, model.sortChildren node.children = .ok sorted) :
    ∃ after, model.sortNodes nodes = .ok after := by
  induction nodes with
  | nil => exact ⟨[], rfl⟩
  | cons node rest ih =>
    obtain ⟨⟨sorted, first⟩, others⟩ := List.forall_mem_cons.mp each
    obtain ⟨after, done⟩ := ih others
    refine ⟨{ node with children := sorted } :: after, ?_⟩
    rw [ProviderModel.sortNodes, first]
    simp only [bind, Except.bind, done]
    rfl

end Sorted

section Enumerations
variable {entries : List SemanticsEntry} (nodup : (entries.map entryKeys.key).Nodup)
  {parent : Option Nat} {ids : List Nat}
include nodup

theorem mem_child_ids (id : Nat) : id ∈ childIds entries parent ↔
    ∃ entry, mirrorOf entryKeys entries id = some entry ∧ entry.parentId = parent := by
  simp only [childIds, List.mem_map, List.mem_filter, decide_eq_true_eq, mirror_of_some nodup]
  constructor
  · rintro ⟨entry, ⟨listed, below⟩, named⟩
    exact ⟨entry, ⟨listed, named⟩, below⟩
  · rintro ⟨entry, ⟨listed, named⟩, below⟩
    exact ⟨entry, ⟨listed, below⟩, named⟩

theorem child_ids_nodup : (childIds entries parent).Nodup :=
  nodup.sublist (List.filter_sublist.map _)

/-- Enumerating what is below a parent is ordering its children by their indexes. -/
theorem enumerated_iff {model : ProviderModel}
    (mirror : model.mirror = mirrorOf entryKeys entries) :
    Enumerated (mirrorOf entryKeys entries) parent ids ↔
      ids.Perm (childIds entries parent) ∧
        ids.map model.childIndexOf = List.range ids.length := by
  have index_of : ∀ id entry, mirrorOf entryKeys entries id = some entry →
      model.childIndexOf id = entry.childIndex := by
    intro id entry held
    rw [← mirror, model.mirror_find] at held
    obtain ⟨node, found, rfl⟩ := Option.map_eq_some_iff.mp held
    rw [ProviderModel.childIndexOf, found]
  constructor
  · intro enumerated
    have indexes : ids.map model.childIndexOf = List.range ids.length := by
      refine List.ext_getElem (by simp) fun index here there => ?_
      rw [List.getElem_map, List.getElem_range]
      rw [List.length_map] at here
      obtain ⟨entry, held, at_index⟩ := enumerated.indexed index ids[index]
        (List.getElem?_eq_getElem here)
      rw [index_of _ entry held, at_index]
    have distinct : ids.Nodup := by
      refine List.Nodup.of_map model.childIndexOf ?_
      rw [indexes]
      exact List.nodup_range
    refine ⟨(List.perm_ext_iff_of_nodup distinct (child_ids_nodup nodup)).mpr fun id => ?_, indexes⟩
    rw [enumerated.members, mem_child_ids nodup]
  · rintro ⟨same, indexes⟩
    refine ⟨fun id => by rw [same.mem_iff, mem_child_ids nodup], fun index id here => ?_⟩
    obtain ⟨entry, held, _⟩ := (mem_child_ids nodup id).mp
      (same.mem_iff.mp (List.mem_of_getElem? here))
    refine ⟨entry, held, ?_⟩
    rw [← index_of id entry held]
    obtain ⟨inside, rfl⟩ := List.getElem?_eq_some_iff.mp here
    have at_index := List.getElem_of_eq indexes (by simpa using inside)
    rw [List.getElem_map, List.getElem_range] at at_index
    exact at_index

end Enumerations

/-! What can be presented. -/

/-- Entries that make a forest with valid bounds and consistent focus, of which at most one is
focused, and whose siblings have the indexes from zero on. -/
structure Presentable (platform : Win32Platform) (m : Mirror Nat SemanticsEntry) : Prop where
  forest : Forest entryKeys m
  bounds : ∀ id entry, m id = some entry → validRect platform entry.bounds = true
  focused : ∀ id entry, m id = some entry → entry.focused = true →
    entry.focusable = true ∧ entry.enabled = true
  alone : ∀ first second entry other, m first = some entry → m second = some other →
    entry.focused = true → other.focused = true → first = second
  actions : ∀ id entry, m id = some entry → entry.focusable = entry.actions.contains .focus
  siblings : ∀ parent, ∃ ids, Enumerated m parent ids

section Rebuilding
variable {platform : Win32Platform} {model next : ProviderModel}

theorem mirror_of_perm {first second : List SemanticsEntry} (same : first.Perm second)
    (nodup : (second.map entryKeys.key).Nodup) :
    mirrorOf entryKeys first = mirrorOf entryKeys second := by
  funext id
  refine Option.ext fun entry => ?_
  rw [mirror_of_some nodup, mirror_of_some ((same.map _).nodup_iff.mpr nodup), same.mem_iff]

theorem count_le_one_iff {entries : List SemanticsEntry}
    (nodup : (entries.map entryKeys.key).Nodup) :
    entries.countP (·.focused) ≤ 1 ↔ ∀ entry ∈ entries, ∀ other ∈ entries,
      entry.focused = true → other.focused = true → entry.id = other.id := by
  rw [List.countP_eq_length_filter]
  constructor
  · intro few entry listed other among focused also
    have here := List.mem_filter.mpr ⟨listed, focused⟩
    have there := List.mem_filter.mpr ⟨among, also⟩
    match held : entries.filter (·.focused) with
    | [] =>
      rw [held] at here
      cases here
    | [only] =>
      rw [held] at here there
      rw [List.mem_singleton.mp here, List.mem_singleton.mp there]
    | _ :: _ :: _ =>
      rw [held] at few
      simp at few
  · intro alone
    have distinct : (entries.filter (·.focused)).Nodup :=
      (List.Nodup.of_map _ nodup).sublist List.filter_sublist
    match held : entries.filter (·.focused) with
    | [] => simp [held]
    | [_] => simp [held]
    | first :: second :: rest =>
      have members : ∀ entry ∈ entries.filter (·.focused), entry ∈ entries ∧
          entry.focused = true := fun entry listed => List.mem_filter.mp listed
      rw [held] at members distinct
      obtain ⟨one, focused⟩ := members first (.head _)
      obtain ⟨two, also⟩ := members second (.tail _ (.head _))
      have same := List.inj_on_of_nodup_map nodup one two (alone _ one _ two focused also)
      exact absurd (same ▸ .head _) (List.nodup_cons.mp distinct).1

/-- Every entry can be linked where the entries can be presented, and the other way round. -/
theorem linkable_iff {entries : List SemanticsEntry} (nodup : (entries.map entryKeys.key).Nodup) :
    (∀ entry ∈ entries,
        Linkable platform (mirrorOf entryKeys entries) entries.length entry) ∧
        entries.countP (·.focused) ≤ 1 ↔
      Forest entryKeys (mirrorOf entryKeys entries) ∧
        ∀ entry ∈ entries, validRect platform entry.bounds = true ∧
          (entry.focused = true → entry.focusable = true ∧ entry.enabled = true) ∧
          entry.focusable = entry.actions.contains .focus ∧
          ∀ other ∈ entries, entry.focused = true → other.focused = true →
            entry.id = other.id := by
  have climbs := @forest_iff_climbs _ _ entryKeys (mirrorOf entryKeys entries)
    (entries.map entryKeys.key) (fun id entry held => ((mirror_of_some nodup).mp held).2)
    fun id => mirror_of_isSome
  rw [List.length_map] at climbs
  rw [count_le_one_iff nodup]
  constructor
  · rintro ⟨linkable, alone⟩
    refine ⟨climbs.mpr fun id listed => ?_, fun entry listed => ?_⟩
    · obtain ⟨entry, among, rfl⟩ := List.mem_map.mp listed
      exact (linkable entry among).climbs
    · have each := linkable entry listed
      exact ⟨each.bounds, each.focused, each.actions, alone entry listed⟩
  · rintro ⟨forest, each⟩
    refine ⟨fun entry listed => ?_, fun entry listed => (each entry listed).2.2.2⟩
    obtain ⟨bounds, focused, actions, _⟩ := each entry listed
    have held : mirrorOf entryKeys entries entry.id = some entry :=
      (mirror_of_some nodup).mpr ⟨listed, rfl⟩
    refine ⟨bounds, focused, actions, fun parent named => ?_,
      climbs.mp forest _ (List.mem_map_of_mem listed)⟩
    have joined : ParentOf entryKeys (mirrorOf entryKeys entries) entry.id parent :=
      ⟨entry, held, named⟩
    refine ⟨forest.parent_present _ _ joined, ?_⟩
    rintro rfl
    exact forest.acyclic _ (.single joined)

/-- The first loop of a rebuild. -/
theorem linking_ok_iff (distinct : model.Distinct) {linked : Linking} :
    linkNodes platform ((platform.arrange model.nodes).map (·.entry))
        ⟨attach model.nodes [], false⟩ = .ok linked ↔
      (Forest entryKeys model.mirror ∧
        ∀ id entry, model.mirror id = some entry → validRect platform entry.bounds = true ∧
          (entry.focused = true → entry.focusable = true ∧ entry.enabled = true) ∧
          entry.focusable = entry.actions.contains .focus ∧
          ∀ second other, model.mirror second = some other → entry.focused = true →
            other.focused = true → id = second) ∧
        linked = ⟨attach model.nodes ((platform.arrange model.nodes).map (·.entry)),
          ((platform.arrange model.nodes).map (·.entry)).any (·.focused)⟩ := by
  have same : ((platform.arrange model.nodes).map (·.entry)).Perm (model.nodes.map (·.entry)) :=
    (platform.arrange_perm model.nodes).map _
  have nodup := ProviderModel.distinct_iff.mp distinct
  have nodup' := (same.map entryKeys.key).nodup_iff.mpr nodup
  have mirror := mirror_of_perm same nodup
  have length : model.nodes.length = ((platform.arrange model.nodes).map (·.entry)).length := by
    rw [same.length_eq, List.length_map]
  rw [link_nodes_ok_iff, ← mirror, length, Bool.toNat_false, Nat.add_zero, ← and_assoc,
    linkable_iff nodup', List.nil_append, Bool.false_or, mirror]
  refine and_congr (and_congr Iff.rfl ?_) Iff.rfl
  have held : ∀ id entry, model.mirror id = some entry ↔
      entry ∈ (platform.arrange model.nodes).map (·.entry) ∧ entry.id = id := by
    intro id entry
    rw [ProviderModel.mirror, mirror_of_some nodup, same.mem_iff]
    rfl
  constructor
  · intro each id entry here
    obtain ⟨listed, rfl⟩ := (held id entry).mp here
    obtain ⟨bounds, focused, actions, alone⟩ := each entry listed
    refine ⟨bounds, focused, actions, fun second other there => ?_⟩
    obtain ⟨among, rfl⟩ := (held second other).mp there
    exact alone other among
  · intro each entry listed
    obtain ⟨bounds, focused, actions, alone⟩ :=
      each entry.id entry ((held entry.id entry).mpr ⟨listed, rfl⟩)
    exact ⟨bounds, focused, actions, fun other among =>
      alone other.id other ((held other.id other).mpr ⟨among, rfl⟩)⟩

/-- The lists of an adapter are the hierarchy that its entries tell. -/
structure ProviderModel.Shows (model : ProviderModel) (m : Mirror Nat SemanticsEntry) : Prop where
  mirror : model.mirror = m
  roots : Enumerated m none model.roots
  children : ∀ node ∈ model.nodes, Enumerated m (some node.entry.id) node.children

theorem related_mem {β γ : Type} {related : β → γ → Prop} {before : List β} {after : List γ}
    (each : List.Forall₂ related before after) {second : γ} (listed : second ∈ after) :
    ∃ first ∈ before, related first second := by
  induction each with
  | nil => cases listed
  | cons one _ ih =>
    rcases List.mem_cons.mp listed with rfl | listed
    · exact ⟨_, .head _, one⟩
    · obtain ⟨first, among, holds⟩ := ih listed
      exact ⟨first, .tail _ among, holds⟩

theorem rebuild_ok_iff : rebuildHierarchy platform model = .ok next ↔
    ∃ linked, linkNodes platform ((platform.arrange model.nodes).map (·.entry))
        ⟨attach model.nodes [], false⟩ = .ok linked ∧
      linked.model.sortChildren linked.model.roots = .ok next.roots ∧
      linked.model.sortNodes linked.model.nodes = .ok next.nodes := by
  have cleared : attach model.nodes [] =
      ⟨model.nodes.map fun node => { node with children := [] }, []⟩ := rfl
  rw [cleared]
  simp only [rebuildHierarchy, bind_ok_iff]
  constructor
  · rintro ⟨linked, first, roots, second, nodes, third, same⟩
    cases same
    exact ⟨linked, first, second, third⟩
  · rintro ⟨linked, first, second, third⟩
    exact ⟨linked, first, _, second, _, third, rfl⟩

/-- A hierarchy that is rebuilt can be presented, and shows. -/
theorem rebuild_ok (distinct : model.Distinct)
    (rebuilt : rebuildHierarchy platform model = .ok next) :
    Presentable platform model.mirror ∧ next.Distinct ∧ next.Shows model.mirror := by
  have same : ((platform.arrange model.nodes).map (·.entry)).Perm (model.nodes.map (·.entry)) :=
    (platform.arrange_perm model.nodes).map _
  have nodup := ProviderModel.distinct_iff.mp distinct
  have nodup' := (same.map entryKeys.key).nodup_iff.mpr nodup
  have mirror := mirror_of_perm same nodup
  obtain ⟨linked, linking, roots, nodes⟩ := rebuild_ok_iff.mp rebuilt
  obtain ⟨⟨forest, each⟩, rfl⟩ := (linking_ok_iff distinct).mp linking
  have kept : (attach model.nodes ((platform.arrange model.nodes).map (·.entry))).mirror =
      mirrorOf entryKeys ((platform.arrange model.nodes).map (·.entry)) := by
    rw [attach_mirror, mirror]
  -- What is accepted by the sort enumerates the children.
  have enumerates : ∀ {parent sorted}, (attach model.nodes
      ((platform.arrange model.nodes).map (·.entry))).sortChildren
        (childIds ((platform.arrange model.nodes).map (·.entry)) parent) = .ok sorted →
      Enumerated model.mirror parent sorted := by
    intro parent sorted accepted
    rw [ProviderModel.mirror, ← mirror]
    exact (enumerated_iff nodup' kept).mpr (sort_children_ok accepted)
  have sorted := sort_nodes_ok _ _ nodes
  have entries : next.nodes.map (·.entry) = model.nodes.map (·.entry) := by
    have unchanged : ∀ before after : List NativeNode, List.Forall₂ (fun before after =>
        after.entry = before.entry ∧ (attach model.nodes
          ((platform.arrange model.nodes).map (·.entry))).sortChildren before.children =
            .ok after.children) before after → after.map (·.entry) = before.map (·.entry) := by
      intro before after each
      induction each with
      | nil => rfl
      | cons one _ ih => rw [List.map_cons, List.map_cons, one.1, ih]
    rw [unchanged _ _ sorted, attach, List.map_map]
    rfl
  have children : ∀ node ∈ next.nodes,
      Enumerated model.mirror (some node.entry.id) node.children := by
    intro node listed
    obtain ⟨before, among, entry, accepted⟩ := related_mem sorted listed
    obtain ⟨base, _, rfl⟩ := List.mem_map.mp among
    rw [entry]
    exact enumerates accepted
  have siblings : ∀ parent, ∃ ids, Enumerated model.mirror parent ids := by
    intro parent
    cases parent with
    | none => exact ⟨next.roots, enumerates roots⟩
    | some parent =>
      cases held : model.mirror parent with
      | none =>
        -- Nothing names a parent that is not there.
        refine ⟨[], fun id => ⟨nofun, ?_⟩, nofun⟩
        rintro ⟨entry, here, named⟩
        have there := forest.parent_present id parent ⟨entry, here, named⟩
        rw [held] at there
        cases there
      | some entry =>
        obtain ⟨listed, rfl⟩ := (mirror_of_some nodup).mp held
        rw [← entries] at listed
        obtain ⟨node, among, rfl⟩ := List.mem_map.mp listed
        exact ⟨node.children, children node among⟩
  refine ⟨⟨forest, fun id entry held => (each id entry held).1,
    fun id entry held => (each id entry held).2.1, fun first second entry other held also =>
      (each first entry held).2.2.2 second other also,
    fun id entry held => (each id entry held).2.2.1, siblings⟩, ?_, ?_, enumerates roots, children⟩
  · rw [ProviderModel.distinct_iff, entries]
    exact nodup
  · rw [ProviderModel.mirror, entries]
    rfl

/-- Entries that can be presented are accepted. -/
theorem rebuild_accepts (distinct : model.Distinct)
    (presentable : Presentable platform model.mirror) :
    ∃ next, rebuildHierarchy platform model = .ok next := by
  have same : ((platform.arrange model.nodes).map (·.entry)).Perm (model.nodes.map (·.entry)) :=
    (platform.arrange_perm model.nodes).map _
  have nodup := ProviderModel.distinct_iff.mp distinct
  have nodup' := (same.map entryKeys.key).nodup_iff.mpr nodup
  have mirror := mirror_of_perm same nodup
  have kept : (attach model.nodes ((platform.arrange model.nodes).map (·.entry))).mirror =
      mirrorOf entryKeys ((platform.arrange model.nodes).map (·.entry)) := by
    rw [attach_mirror, mirror]
  have sorts : ∀ parent, ∃ sorted, (attach model.nodes
      ((platform.arrange model.nodes).map (·.entry))).sortChildren
        (childIds ((platform.arrange model.nodes).map (·.entry)) parent) = .ok sorted := by
    intro parent
    obtain ⟨ids, enumerated⟩ := presentable.siblings parent
    rw [ProviderModel.mirror, ← mirror] at enumerated
    obtain ⟨perm, contiguous⟩ := (enumerated_iff nodup' kept).mp enumerated
    exact ⟨ids, sort_children_accepts perm contiguous⟩
  have linking := (@linking_ok_iff platform model distinct _).mpr
    ⟨⟨presentable.forest, fun id entry held => ⟨presentable.bounds id entry held,
      presentable.focused id entry held, presentable.actions id entry held,
      fun second other also => presentable.alone id second entry other held also⟩⟩, rfl⟩
  obtain ⟨roots, first⟩ := sorts none
  obtain ⟨nodes, others⟩ := sort_nodes_accepts
    (attach model.nodes ((platform.arrange model.nodes).map (·.entry))).nodes fun node listed => by
      obtain ⟨base, _, rfl⟩ := List.mem_map.mp listed
      exact sorts (some base.entry.id)
  exact ⟨⟨nodes, roots⟩, rebuild_ok_iff.mpr ⟨_, linking, first, others⟩⟩

end Rebuilding

end Dui
