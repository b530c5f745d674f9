import Mathlib.Data.List.Basic
import Mathlib.Data.List.Nodup
import Mathlib.Logic.Relation
import Mathlib.Logic.Function.Basic

/-! Edit scripts between two forests of keyed entries. A mirror holds one entry
for each key; a script adds, updates and removes entries one at a time. The
script built here may re-parent and reorder entries in any way, and every
prefix of it still leaves a forest. -/
namespace ForestEdit

/-- How an entry names itself and the entry above it. -/
structure Keyed (κ ε : Type*) where
  key : ε → κ
  parent : ε → Option κ

/-- One step of an edit script. -/
inductive Change (ε : Type*) where
  | added (entry : ε)
  | updated (entry : ε)
  | removed (entry : ε)
  deriving DecidableEq

/-- The entry a change is about. -/
def Change.entry {ε : Type*} : Change ε → ε
  | .added entry => entry
  | .updated entry => entry
  | .removed entry => entry

/-- What a consumer of edit scripts retains. -/
abbrev Mirror (κ ε : Type*) := κ → Option ε

variable {κ ε : Type*} [DecidableEq κ] {k : Keyed κ ε} {m : Mirror κ ε}
variable {entries before after : List ε} {x p : κ} {e : ε}

/-- Applying one change is undefined when it adds a present key, or updates or
removes an absent one. -/
def applyChange (k : Keyed κ ε) (m : Mirror κ ε) : Change ε → Option (Mirror κ ε)
  | .added e => if (m (k.key e)).isNone then some (Function.update m (k.key e) (some e)) else none
  | .updated e => if (m (k.key e)).isSome then some (Function.update m (k.key e) (some e)) else none
  | .removed e => if (m (k.key e)).isSome then some (Function.update m (k.key e) none) else none

/-- Applying changes in order, as long as each of them is defined. -/
def replay (k : Keyed κ ε) (m : Mirror κ ε) : List (Change ε) → Option (Mirror κ ε)
  | [] => some m
  | change :: rest => (applyChange k m change).bind fun next => replay k next rest

/-- The entry a mirror holds for `x` names `p` as its parent. -/
def ParentOf (k : Keyed κ ε) (m : Mirror κ ε) (x p : κ) : Prop :=
  ∃ e, m x = some e ∧ k.parent e = some p

/-- Entries sit under their own keys, every named parent is present, and no
entry is its own ancestor. -/
structure Forest (k : Keyed κ ε) (m : Mirror κ ε) : Prop where
  keyed : ∀ x e, m x = some e → k.key e = x
  parent_present : ∀ x p, ParentOf k m x p → (m p).isSome
  acyclic : ∀ x, ¬ Relation.TransGen (ParentOf k m) x x

/-- The mirror of a list of entries. -/
def mirrorOf (k : Keyed κ ε) (entries : List ε) : Mirror κ ε :=
  fun x => entries.find? fun e => k.key e = x

/-- Every entry's parent is among the keys already `seen` when it is reached. -/
def ParentsFirst (k : Keyed κ ε) : List κ → List ε → Prop
  | _, [] => True
  | seen, e :: rest =>
    (∀ p, k.parent e = some p → p ∈ seen) ∧ ParentsFirst k (k.key e :: seen) rest

/-- A list of entries with distinct keys in which parents precede children. -/
structure Ordered (k : Keyed κ ε) (entries : List ε) : Prop where
  nodup : (entries.map k.key).Nodup
  parents_first : ParentsFirst k [] entries

omit [DecidableEq κ] in
theorem parents_first_append {seen : List κ} {left right : List ε} :
    ParentsFirst k seen (left ++ right) ↔
      ParentsFirst k seen left ∧ ParentsFirst k ((left.map k.key).reverse ++ seen) right := by
  induction left generalizing seen with
  | nil => simp [ParentsFirst]
  | cons e rest ih => simp [ParentsFirst, ih, and_assoc]

omit [DecidableEq κ] in
/-- In an ordered list, the parent of an entry occurs before it. -/
theorem parent_before (before after : List ε) (ordered : Ordered k (before ++ e :: after))
    (named : k.parent e = some p) :
    p ∈ before.map k.key := by
  have split := (parents_first_append.mp ordered.parents_first).2
  simpa using split.1 p named

section Mirrors

theorem mirror_of_some (nodup : (entries.map k.key).Nodup) :
    mirrorOf k entries x = some e ↔ e ∈ entries ∧ k.key e = x := by
  constructor
  · intro found
    exact ⟨List.mem_of_find?_eq_some found, by simpa using List.find?_some found⟩
  · rintro ⟨member, rfl⟩
    cases found : mirrorOf k entries (k.key e) with
    | none => simpa using List.find?_eq_none.mp found e member
    | some other =>
      have same : k.key other = k.key e := by simpa using List.find?_some found
      rw [List.inj_on_of_nodup_map nodup (List.mem_of_find?_eq_some found) member same]

theorem mirror_of_none : mirrorOf k entries x = none ↔ x ∉ entries.map k.key := by
  simp [mirrorOf]

theorem mirror_of_isSome : (mirrorOf k entries x).isSome ↔ x ∈ entries.map k.key := by
  rw [← not_iff_not, ← mirror_of_none]
  simp

end Mirrors

section Replays

theorem replay_append {first second : List (Change ε)} :
    replay k m (first ++ second) = (replay k m first).bind fun next => replay k next second := by
  induction first generalizing m with
  | nil => rfl
  | cons change rest ih =>
    simp only [List.cons_append, replay]
    cases applyChange k m change with
    | none => rfl
    | some next => exact ih

/-- The entries listed hide what the mirror held for their keys. -/
def overlay (k : Keyed κ ε) (entries : List ε) (m : Mirror κ ε) : Mirror κ ε :=
  fun x => (mirrorOf k entries x).or (m x)

theorem overlay_cons (absent : k.key e ∉ entries.map k.key) :
    overlay k (e :: entries) m = overlay k entries (Function.update m (k.key e) (some e)) := by
  funext x
  by_cases same : k.key e = x
  · subst same
    have hidden : mirrorOf k (e :: entries) (k.key e) = some e := by simp [mirrorOf]
    simp only [overlay, hidden, mirror_of_none.mpr absent, Function.update_self, Option.some_or,
      Option.none_or]
  · simp [overlay, mirrorOf, same, Ne.symm same]

theorem replay_added (nodup : (entries.map k.key).Nodup)
    (absent : ∀ e ∈ entries, m (k.key e) = none) :
    replay k m (entries.map .added) = some (overlay k entries m) := by
  induction entries generalizing m with
  | nil => rfl
  | cons e rest ih =>
    obtain ⟨head, tail⟩ := List.nodup_cons.mp nodup
    have step : applyChange k m (.added e) = some (Function.update m (k.key e) (some e)) := by
      simp [applyChange, absent e (by simp)]
    rw [List.map_cons, replay, step, overlay_cons head]
    refine ih tail fun other member => ?_
    have distinct : k.key other ≠ k.key e := fun same =>
      head (same ▸ List.mem_map_of_mem member)
    rw [Function.update_of_ne distinct, absent other (List.mem_cons_of_mem _ member)]

theorem replay_updated (nodup : (entries.map k.key).Nodup)
    (present : ∀ e ∈ entries, (m (k.key e)).isSome) :
    replay k m (entries.map .updated) = some (overlay k entries m) := by
  induction entries generalizing m with
  | nil => rfl
  | cons e rest ih =>
    obtain ⟨head, tail⟩ := List.nodup_cons.mp nodup
    have step : applyChange k m (.updated e) = some (Function.update m (k.key e) (some e)) := by
      simp [applyChange, present e (by simp)]
    rw [List.map_cons, replay, step, overlay_cons head]
    refine ih tail fun other member => ?_
    have distinct : k.key other ≠ k.key e := fun same =>
      head (same ▸ List.mem_map_of_mem member)
    rw [Function.update_of_ne distinct]
    exact present other (List.mem_cons_of_mem _ member)

/-- A mirror without the keys of the entries listed. -/
def erase (k : Keyed κ ε) (entries : List ε) (m : Mirror κ ε) : Mirror κ ε :=
  fun x => if x ∈ entries.map k.key then none else m x

theorem replay_removed (nodup : (entries.map k.key).Nodup)
    (present : ∀ e ∈ entries, (m (k.key e)).isSome) :
    replay k m (entries.map .removed) = some (erase k entries m) := by
  induction entries generalizing m with
  | nil => exact congrArg some (funext fun x => by simp [erase])
  | cons e rest ih =>
    obtain ⟨head, tail⟩ := List.nodup_cons.mp nodup
    have step : applyChange k m (.removed e) = some (Function.update m (k.key e) none) := by
      simp [applyChange, present e (by simp)]
    have shape : erase k (e :: rest) m = erase k rest (Function.update m (k.key e) none) := by
      funext x
      by_cases same : x = k.key e
      · subst same; simp [erase]
      · simp [erase, same]
    rw [List.map_cons, replay, step, shape]
    refine ih tail fun other member => ?_
    have distinct : k.key other ≠ k.key e := fun same =>
      head (same ▸ List.mem_map_of_mem member)
    rw [Function.update_of_ne distinct]
    exact present other (List.mem_cons_of_mem _ member)

end Replays

section Ranks

omit [DecidableEq κ] in
/-- A rank that grows from parent to child rules out cycles. -/
theorem forest_of_rank (rank : κ → ℕ) (keyed : ∀ x e, m x = some e → k.key e = x)
    (lower : ∀ x p, ParentOf k m x p → (m p).isSome ∧ rank p < rank x) : Forest k m := by
  have descends : ∀ x y, Relation.TransGen (ParentOf k m) x y → rank y < rank x := by
    intro x y path
    induction path with
    | single edge => exact (lower _ _ edge).2
    | tail _ edge ih => exact Nat.lt_trans (lower _ _ edge).2 ih
  exact ⟨keyed, fun x p edge => (lower x p edge).1,
    fun x path => Nat.lt_irrefl _ (descends x x path)⟩

/-- The place of a key in a list of entries. -/
def position (k : Keyed κ ε) (entries : List ε) (x : κ) : ℕ := (entries.map k.key).idxOf x

theorem position_lt (member : x ∈ entries.map k.key) : position k entries x < entries.length := by
  simpa [position] using List.idxOf_lt_length_of_mem member

theorem position_parent_lt (ordered : Ordered k entries) (member : e ∈ entries)
    (named : k.parent e = some p) :
    p ∈ entries.map k.key ∧ position k entries p < position k entries (k.key e) := by
  obtain ⟨before, after, rfl⟩ := List.append_of_mem member
  have earlier := parent_before before after ordered named
  have fresh : k.key e ∉ before.map k.key := by
    have nodup := ordered.nodup
    rw [List.map_append, List.map_cons, List.nodup_append] at nodup
    exact fun seen => nodup.2.2 _ seen _ (by simp) rfl
  have bound : position k before p < before.length := position_lt earlier
  have here : (before.map k.key).length = before.length := List.length_map ..
  refine ⟨by simp only [List.map_append, List.mem_append]; exact Or.inl earlier, ?_⟩
  simp only [position, List.map_append, List.map_cons] at bound ⊢
  rw [List.idxOf_append_of_mem earlier, List.idxOf_append_of_notMem fresh, List.idxOf_cons_self]
  omega

end Ranks

section Script

variable [DecidableEq ε] {prev next front back : List ε}

/-- Entries of `next` whose key `prev` does not have. -/
def fresh (k : Keyed κ ε) (prev next : List ε) : List ε :=
  next.filter fun e => (mirrorOf k prev (k.key e)).isNone

/-- Entries of `next` that `prev` has under the same key with other contents. -/
def changed (k : Keyed κ ε) (prev next : List ε) : List ε :=
  next.filter fun e => (mirrorOf k prev (k.key e)).isSome ∧ mirrorOf k prev (k.key e) ≠ some e

/-- Entries of `prev` whose key `next` does not have, children before parents. -/
def gone (k : Keyed κ ε) (prev next : List ε) : List ε :=
  prev.reverse.filter fun e => (mirrorOf k next (k.key e)).isNone

/-- Additions and updates parents first, then removals children first. -/
def script (k : Keyed κ ε) (prev next : List ε) : List (Change ε) :=
  (fresh k prev next).map .added ++ (changed k prev next).map .updated ++
    (gone k prev next).map .removed

omit [DecidableEq ε] in
/-- A mirror that shows `next` on the keys of a prefix of it, `prev` on its
remaining keys and `next` on keys that are new, is a forest once every parent
is present. The rank puts the prefix first, then `prev`, then the new keys. -/
theorem forest_of_mixture (front back : List ε) (ordered : Ordered k prev)
    (ordered' : Ordered k (front ++ back))
    (shape : ∀ x e, m x = some e → k.key e = x ∧
      ((x ∈ front.map k.key ∧ e ∈ front ++ back) ∨ (x ∉ front.map k.key ∧ e ∈ prev) ∨
        (x ∉ front.map k.key ∧ x ∉ prev.map k.key ∧ e ∈ front ++ back)))
    (present : ∀ x p, ParentOf k m x p → (m p).isSome) : Forest k m := by
  let rank := fun x =>
    if x ∈ front.map k.key then position k (front ++ back) x
    else if x ∈ prev.map k.key then (front ++ back).length + position k prev x
    else (front ++ back).length + prev.length + position k (front ++ back) x
  -- Any key of the prefix ranks below every key outside of it.
  have below : ∀ p, p ∈ front.map k.key → rank p < (front ++ back).length := by
    intro p member
    simp only [rank, if_pos member]
    exact position_lt (by simp only [List.map_append, List.mem_append]; exact Or.inl member)
  have closed : ∀ x p, position k (front ++ back) p < position k (front ++ back) x →
      x ∈ front.map k.key → p ∈ front.map k.key := by
    intro x p before member
    by_contra outside
    simp only [position, List.map_append] at before
    rw [List.idxOf_append_of_mem member, List.idxOf_append_of_notMem outside] at before
    have bound := List.idxOf_lt_length_of_mem member
    omega
  refine forest_of_rank rank (fun x e held => (shape x e held).1) fun x p edge => ⟨present x p edge, ?_⟩
  obtain ⟨e, held, named⟩ := edge
  obtain ⟨rfl, ⟨inside, member⟩ | ⟨outside, member⟩ | ⟨outside, absent, member⟩⟩ := shape x e held
  · obtain ⟨_, before⟩ := position_parent_lt ordered' member named
    simp only [rank, if_pos inside, if_pos (closed _ _ before inside), before]
  · obtain ⟨parent, before⟩ := position_parent_lt ordered member named
    have here : k.key e ∈ prev.map k.key := List.mem_map_of_mem member
    simp only [rank, if_neg outside, if_pos here]
    by_cases first : p ∈ front.map k.key
    · have := below p first
      simp only [rank, if_pos first] at this ⊢
      omega
    · simp only [if_neg first, if_pos parent]
      omega
  · obtain ⟨parent, before⟩ := position_parent_lt ordered' member named
    simp only [rank, if_neg outside, if_neg absent]
    by_cases first : p ∈ front.map k.key
    · have := below p first
      simp only [rank, if_pos first] at this ⊢
      omega
    · by_cases old : p ∈ prev.map k.key
      · have := position_lt old
        simp only [if_neg first, if_pos old]
        omega
      · simp only [if_neg first, if_neg old]
        omega

omit [DecidableEq κ] [DecidableEq ε] in
private theorem filtered_nodup {keep : ε → Bool} (nodup : (entries.map k.key).Nodup) :
    ((entries.filter keep).map k.key).Nodup :=
  nodup.sublist (List.filter_sublist.map _)

omit [DecidableEq ε] in
private theorem mirror_of_filtered {keep : ε → Bool} (nodup : (entries.map k.key).Nodup)
    (kept : ∀ e ∈ entries, k.key e = x → keep e) :
    mirrorOf k (entries.filter keep) x = mirrorOf k entries x := by
  ext e
  rw [mirror_of_some (filtered_nodup nodup), mirror_of_some nodup, List.mem_filter]
  exact ⟨fun held => ⟨held.1.1, held.2⟩, fun held => ⟨⟨held.1, kept e held.1 held.2⟩, held.2⟩⟩

omit [DecidableEq ε] in
private theorem mirror_of_dropped {keep : ε → Bool}
    (dropped : ∀ e ∈ entries, k.key e = x → keep e = false) :
    mirrorOf k (entries.filter keep) x = none := by
  rw [mirror_of_none]
  intro member
  obtain ⟨e, inside, here⟩ := List.mem_map.mp member
  obtain ⟨inside, passed⟩ := List.mem_filter.mp inside
  simp [dropped e inside here] at passed

omit [DecidableEq ε] in
/-- Additions alone leave `prev` in place and show the new keys. -/
theorem overlay_fresh (prev : List ε) (x : κ) (nodup : (next.map k.key).Nodup) :
    overlay k (fresh k prev next) (mirrorOf k prev) x =
      if x ∈ prev.map k.key then mirrorOf k prev x else mirrorOf k next x := by
  by_cases old : x ∈ prev.map k.key
  · rw [if_pos old, overlay, fresh, mirror_of_dropped, Option.none_or]
    rintro e - rfl
    simpa using mirror_of_isSome.mpr old
  · rw [if_neg old, overlay, fresh, mirror_of_filtered nodup, mirror_of_none.mpr old, Option.or_none]
    rintro e - rfl
    simp [mirror_of_none.mpr old]

/-- Updates of a prefix then show `next` on that prefix, too. -/
theorem overlay_changed (prev front back : List ε) (x : κ)
    (nodup : ((front ++ back).map k.key).Nodup) :
    overlay k (changed k prev front) (overlay k (fresh k prev (front ++ back)) (mirrorOf k prev)) x =
      if x ∈ prev.map k.key ∧ x ∉ front.map k.key then mirrorOf k prev x
      else mirrorOf k (front ++ back) x := by
  have frontNodup : (front.map k.key).Nodup :=
    nodup.sublist ((List.sublist_append_left front back).map _)
  rw [overlay, overlay_fresh prev x nodup]
  by_cases old : x ∈ prev.map k.key
  · by_cases first : x ∈ front.map k.key
    · simp only [old, first, not_true, and_false, if_true, if_false]
      obtain ⟨e, member, here⟩ := List.mem_map.mp first
      have shown : mirrorOf k (front ++ back) x = some e :=
        (mirror_of_some nodup).mpr ⟨List.mem_append_left _ member, here⟩
      by_cases same : mirrorOf k prev x = some e
      · rw [shown, same]
        cases found : mirrorOf k (changed k prev front) x with
        | none => rfl
        | some other =>
          have held := (mirror_of_some (filtered_nodup frontNodup)).mp found
          have inFront := (mirror_of_some nodup).mpr
            ⟨List.mem_append_left _ (List.mem_of_mem_filter held.1), held.2⟩
          rw [shown] at inFront
          simpa using inFront.symm
      · have kept : mirrorOf k (changed k prev front) x = some e := by
          refine (mirror_of_some (filtered_nodup frontNodup)).mpr ⟨List.mem_filter.mpr ⟨member, ?_⟩, here⟩
          subst here
          simpa [same] using mirror_of_isSome.mpr old
        rw [kept, shown, Option.some_or]
    · simp only [old, first, not_false_eq_true, and_self, if_true]
      have none : mirrorOf k (changed k prev front) x = none := mirror_of_none.mpr fun member =>
        first ((List.filter_sublist.map _).subset member)
      rw [none, Option.none_or]
  · have dropped : mirrorOf k (changed k prev front) x = none := by
      apply mirror_of_dropped
      rintro e - rfl
      simp [mirror_of_none.mpr old]
    simp only [old, false_and, if_false, dropped, Option.none_or]

/-- The mirror after all additions and updates. -/
def patched (k : Keyed κ ε) (prev next : List ε) : Mirror κ ε :=
  overlay k (changed k prev next) (overlay k (fresh k prev next) (mirrorOf k prev))

theorem patched_apply (prev : List ε) (x : κ) (nodup : (next.map k.key).Nodup) :
    patched k prev next x =
      if x ∈ next.map k.key then mirrorOf k next x else mirrorOf k prev x := by
  have split := overlay_changed prev next [] x (by simpa using nodup)
  simp only [List.append_nil] at split
  rw [patched, split]
  by_cases new : x ∈ next.map k.key
  · simp [new]
  · by_cases old : x ∈ prev.map k.key
    · simp [new, old]
    · simp [new, old, mirror_of_none.mpr new, mirror_of_none.mpr old]

omit [DecidableEq ε] in
private theorem mem_of_mirror (held : mirrorOf k entries x = some e) :
    e ∈ entries ∧ k.key e = x :=
  ⟨List.mem_of_find?_eq_some held, by simpa using List.find?_some held⟩

omit [DecidableEq ε] in
private theorem added_stage_forest (ordered : Ordered k prev) (ordered' : Ordered k (front ++ back)) :
    Forest k (overlay k (fresh k prev front) (mirrorOf k prev)) := by
  have nodup : (front.map k.key).Nodup :=
    ordered'.nodup.sublist ((List.sublist_append_left front back).map _)
  have shown := fun x => overlay_fresh prev x nodup
  refine forest_of_mixture [] (front ++ back) ordered ordered' ?_ ?_
  · intro x e held
    rw [shown] at held
    split at held
    · obtain ⟨member, here⟩ := mem_of_mirror held
      exact ⟨here, Or.inr (Or.inl ⟨by simp, member⟩)⟩
    · rename_i absent
      obtain ⟨member, here⟩ := mem_of_mirror held
      exact ⟨here, Or.inr (Or.inr ⟨by simp, absent, by simp [member]⟩)⟩
  · rintro x p ⟨e, held, named⟩
    rw [shown] at held ⊢
    split at held
    · obtain ⟨member, rfl⟩ := mem_of_mirror held
      have parent := (position_parent_lt ordered member named).1
      rw [if_pos parent]
      exact mirror_of_isSome.mpr parent
    · obtain ⟨member, rfl⟩ := mem_of_mirror held
      obtain ⟨before, after, rfl⟩ := List.append_of_mem member
      have parent := parent_before before (after ++ back) (by simpa using ordered') named
      split
      · exact mirror_of_isSome.mpr ‹_›
      · exact mirror_of_isSome.mpr (by simp only [List.map_append, List.mem_append]; exact Or.inl parent)

private theorem updated_stage_forest (ordered : Ordered k prev)
    (ordered' : Ordered k (front ++ back)) :
    Forest k (overlay k (changed k prev front)
      (overlay k (fresh k prev (front ++ back)) (mirrorOf k prev))) := by
  have shown := fun x => overlay_changed prev front back x ordered'.nodup
  refine forest_of_mixture front back ordered ordered' ?_ ?_
  · intro x e held
    rw [shown] at held
    split at held
    · rename_i old
      obtain ⟨member, here⟩ := mem_of_mirror held
      exact ⟨here, Or.inr (Or.inl ⟨old.2, member⟩)⟩
    · rename_i new
      obtain ⟨member, here⟩ := mem_of_mirror held
      refine ⟨here, ?_⟩
      by_cases first : x ∈ front.map k.key
      · exact Or.inl ⟨first, member⟩
      · exact Or.inr (Or.inr ⟨first, fun old => new ⟨old, first⟩, member⟩)
  · rintro x p ⟨e, held, named⟩
    have covered : p ∈ prev.map k.key ∨ p ∈ (front ++ back).map k.key := by
      rw [shown] at held
      split at held
      · exact Or.inl (position_parent_lt ordered (mem_of_mirror held).1 named).1
      · exact Or.inr (position_parent_lt ordered' (mem_of_mirror held).1 named).1
    rw [shown]
    split
    · exact mirror_of_isSome.mpr (by tauto)
    · rename_i new
      refine mirror_of_isSome.mpr ?_
      by_cases first : p ∈ front.map k.key
      · simp only [List.map_append, List.mem_append]
        exact Or.inl first
      · tauto

private theorem removed_stage_forest (kept erased : List ε) (ordered : Ordered k (kept ++ erased))
    (ordered' : Ordered k next) :
    Forest k (erase k (erased.reverse.filter fun e => (mirrorOf k next (k.key e)).isNone)
      (patched k (kept ++ erased) next)) := by
  have hidden : ∀ x, x ∈ (erased.reverse.filter fun e =>
      (mirrorOf k next (k.key e)).isNone).map k.key ↔ x ∈ erased.map k.key ∧ x ∉ next.map k.key := by
    intro x
    simp only [List.mem_map, List.mem_filter, List.mem_reverse, Option.isNone_iff_eq_none,
      mirror_of_none]
    constructor
    · rintro ⟨e, ⟨member, absent⟩, rfl⟩
      exact ⟨⟨e, member, rfl⟩, absent⟩
    · rintro ⟨⟨e, member, rfl⟩, absent⟩
      exact ⟨e, ⟨member, absent⟩, rfl⟩
  have shown := fun x => patched_apply (kept ++ erased) x ordered'.nodup
  refine forest_of_mixture next [] ordered (by simpa using ordered') ?_ ?_
  · intro x e held
    simp only [erase, hidden, shown] at held
    split at held
    · cases held
    · split at held
      · obtain ⟨member, here⟩ := mem_of_mirror held
        exact ⟨here, Or.inl ⟨‹_›, by simpa using member⟩⟩
      · obtain ⟨member, here⟩ := mem_of_mirror held
        exact ⟨here, Or.inr (Or.inl ⟨‹_›, member⟩)⟩
  · rintro x p ⟨e, held, named⟩
    have covered : p ∈ next.map k.key ∨ p ∈ kept.map k.key := by
      simp only [erase, hidden, shown] at held
      split at held
      · cases held
      · rename_i visible
        split at held
        · exact Or.inl (position_parent_lt ordered' (mem_of_mirror held).1 named).1
        · obtain ⟨member, rfl⟩ := mem_of_mirror held
          have inside : e ∈ kept := (List.mem_append.mp member).resolve_right fun member =>
            visible ⟨List.mem_map_of_mem member, ‹_›⟩
          obtain ⟨before, after, rfl⟩ := List.append_of_mem inside
          have parent := parent_before before (after ++ erased) (by simpa using ordered) named
          exact Or.inr (by simp only [List.map_append, List.mem_append]; exact Or.inl parent)
    simp only [erase, hidden, shown]
    by_cases new : p ∈ next.map k.key
    · simpa [new] using mirror_of_isSome.mpr new
    · have old := covered.resolve_left new
      have nodup := ordered.nodup
      rw [List.map_append, List.nodup_append] at nodup
      have visible : p ∉ erased.map k.key := fun member => nodup.2.2 p old p member rfl
      rw [if_neg (fun both => visible both.1), if_neg new]
      exact mirror_of_isSome.mpr (by simp only [List.map_append, List.mem_append]; exact Or.inl old)

omit [DecidableEq ε] in
private theorem replay_fresh (nodup : (next.map k.key).Nodup) :
    replay k (mirrorOf k prev) ((fresh k prev next).map .added) =
      some (overlay k (fresh k prev next) (mirrorOf k prev)) :=
  replay_added (filtered_nodup nodup) fun e member => by simpa using (List.mem_filter.mp member).2

private theorem replay_changed (prev front back : List ε)
    (nodup : ((front ++ back).map k.key).Nodup) :
    replay k (overlay k (fresh k prev (front ++ back)) (mirrorOf k prev))
        ((changed k prev front).map .updated) =
      some (overlay k (changed k prev front)
        (overlay k (fresh k prev (front ++ back)) (mirrorOf k prev))) := by
  refine replay_updated (filtered_nodup (nodup.sublist
    ((List.sublist_append_left front back).map _))) fun e member => ?_
  have kept := (List.mem_filter.mp member).2
  simp only [ne_eq, Bool.decide_and, Bool.and_eq_true, decide_eq_true_eq] at kept
  rw [overlay_fresh prev _ nodup, if_pos (mirror_of_isSome.mp kept.1)]
  exact kept.1

private theorem replay_gone (kept erased : List ε) (nodup : ((kept ++ erased).map k.key).Nodup)
    (nodup' : (next.map k.key).Nodup) :
    replay k (patched k (kept ++ erased) next)
        ((erased.reverse.filter fun e => (mirrorOf k next (k.key e)).isNone).map .removed) =
      some (erase k (erased.reverse.filter fun e => (mirrorOf k next (k.key e)).isNone)
        (patched k (kept ++ erased) next)) := by
  have erasedNodup : (erased.reverse.map k.key).Nodup := by
    rw [List.map_reverse, List.nodup_reverse]
    exact nodup.sublist ((List.sublist_append_right kept erased).map _)
  refine replay_removed (filtered_nodup erasedNodup) fun e member => ?_
  obtain ⟨member, absent⟩ := List.mem_filter.mp member
  rw [patched_apply _ _ nodup', if_neg (mirror_of_none.mp (by simpa using absent))]
  exact mirror_of_isSome.mpr (List.mem_map_of_mem
    (List.mem_append_right _ (List.mem_reverse.mp member)))

/-- Replaying the whole script turns the mirror of `prev` into that of `next`. -/
theorem script_replay (ordered : Ordered k prev) (ordered' : Ordered k next) :
    replay k (mirrorOf k prev) (script k prev next) = some (mirrorOf k next) := by
  have updates := replay_changed prev next [] (by simpa using ordered'.nodup)
  have removals := replay_gone [] prev (by simpa using ordered.nodup) ordered'.nodup
  simp only [List.append_nil, List.nil_append] at updates removals
  rw [script, replay_append, replay_append, replay_fresh ordered'.nodup, Option.bind_some, updates,
    Option.bind_some, gone, ← patched, removals]
  refine congrArg some (funext fun x => ?_)
  simp only [erase, patched_apply _ _ ordered'.nodup]
  by_cases new : x ∈ next.map k.key
  · rw [if_pos new, if_neg]
    intro member
    obtain ⟨e, inside, rfl⟩ := List.mem_map.mp member
    have absent := (List.mem_filter.mp inside).2
    exact mirror_of_none.mp (by simpa using absent) new
  · rw [if_neg new, mirror_of_none.mpr new]
    split
    · rfl
    · rename_i visible
      refine mirror_of_none.mpr fun old => visible ?_
      obtain ⟨e, member, rfl⟩ := List.mem_map.mp old
      exact List.mem_map_of_mem (List.mem_filter.mpr
        ⟨List.mem_reverse.mpr member, by simpa using mirror_of_none.mpr new⟩)

/-- A list with the same mirror needs no change. -/
theorem script_of_same (nodup : (prev.map k.key).Nodup) (nodup' : (next.map k.key).Nodup)
    (same : mirrorOf k prev = mirrorOf k next) : script k prev next = [] := by
  have shown : ∀ e ∈ next, mirrorOf k prev (k.key e) = some e := by
    intro e member
    rw [same]
    exact (mirror_of_some nodup').mpr ⟨member, rfl⟩
  have noFresh : fresh k prev next = [] :=
    List.filter_eq_nil_iff.mpr fun e member => by simp [shown e member]
  have noChanged : changed k prev next = [] :=
    List.filter_eq_nil_iff.mpr fun e member => by simp [shown e member]
  have noGone : gone k prev next = [] := by
    refine List.filter_eq_nil_iff.mpr fun e member => ?_
    rw [← same, (mirror_of_some nodup).mpr ⟨List.mem_reverse.mp member, rfl⟩]
    simp
  simp [script, noFresh, noChanged, noGone]

/-- Every prefix of the script is defined and leaves a forest. -/
theorem script_prefix_forest (ordered : Ordered k prev) (ordered' : Ordered k next)
    {changes : List (Change ε)} (front : changes <+: script k prev next) :
    ∃ m, replay k (mirrorOf k prev) changes = some m ∧ Forest k m := by
  obtain ⟨rest, split⟩ := front
  rw [script, List.append_assoc] at split
  obtain ⟨later, adds, _⟩ | ⟨middle, rfl, tail⟩ := List.append_eq_append_iff.mp split
  · -- The prefix ends among the additions.
    obtain ⟨done, todo, parts, rfl, _⟩ := List.map_eq_append_iff.mp adds
    obtain ⟨front, back, rfl, rfl, _⟩ := List.filter_eq_append_iff.mp parts
    exact ⟨_, replay_fresh (ordered'.nodup.sublist ((List.sublist_append_left front back).map _)),
      added_stage_forest ordered ordered'⟩
  rw [replay_append, replay_fresh ordered'.nodup, Option.bind_some]
  obtain ⟨later, updates, _⟩ | ⟨last, rfl, removes⟩ := List.append_eq_append_iff.mp tail.symm
  · -- It ends among the updates.
    obtain ⟨done, todo, parts, rfl, _⟩ := List.map_eq_append_iff.mp updates
    obtain ⟨front, back, rfl, rfl, _⟩ := List.filter_eq_append_iff.mp parts
    exact ⟨_, replay_changed prev front back ordered'.nodup, updated_stage_forest ordered ordered'⟩
  · -- It ends among the removals.
    have updates := replay_changed prev next [] (by simpa using ordered'.nodup)
    simp only [List.append_nil] at updates
    rw [replay_append, updates, Option.bind_some, ← patched]
    obtain ⟨done, todo, parts, rfl, _⟩ := List.map_eq_append_iff.mp removes
    obtain ⟨erased, kept, reversed, rfl, _⟩ := List.filter_eq_append_iff.mp parts
    have shape : prev = kept.reverse ++ erased.reverse := by
      rw [← List.reverse_append, ← reversed, List.reverse_reverse]
    subst shape
    have removals := replay_gone kept.reverse erased.reverse ordered.nodup ordered'.nodup
    have forest := removed_stage_forest kept.reverse erased.reverse ordered ordered'
    rw [List.reverse_reverse] at removals forest
    exact ⟨_, removals, forest⟩

end Script

end ForestEdit
