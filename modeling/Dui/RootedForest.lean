import Mathlib.Data.List.Perm.Subperm
import Dui.ForestEdit

/-! Forests told by climbing: in a finite mirror whose parents are present, no entry is its
own ancestor exactly if every climb ends within as many steps as there are entries. -/
namespace ForestEdit

variable {κ ε : Type*} {k : Keyed κ ε} {m : Mirror κ ε} {x p : κ} {e : ε}

/-- Climbs from parent to parent for at most this many steps: does it end at a root? -/
def climb (k : Keyed κ ε) (m : Mirror κ ε) : Nat → κ → Bool
  | 0, x => (m x).any fun e => (k.parent e).isNone
  | steps + 1, x =>
    match m x with
    | none => false
    | some e =>
      match k.parent e with
      | none => true
      | some p => climb k m steps p

/-- There is a root above an entry, or it is one. -/
inductive Rooted (k : Keyed κ ε) (m : Mirror κ ε) : κ → Prop where
  | root {x : κ} {e : ε} (held : m x = some e) (top : k.parent e = none) : Rooted k m x
  | child {x p : κ} (parent : ParentOf k m x p) (rooted : Rooted k m p) : Rooted k m x

theorem climb_rooted (steps : Nat) : ∀ x, climb k m steps x = true → Rooted k m x := by
  induction steps with
  | zero =>
    intro x climbed
    obtain ⟨e, held, top⟩ := (Option.any_eq_true _ _).mp climbed
    exact .root held (Option.isNone_iff_eq_none.mp top)
  | succ steps ih =>
    intro x climbed
    rw [climb] at climbed
    split at climbed
    · cases climbed
    · rename_i e held
      split at climbed
      · exact .root held ‹_›
      · rename_i p up
        exact .child ⟨e, held, up⟩ (ih p climbed)

theorem ParentOf.unique {q : κ} (one : ParentOf k m x p) (other : ParentOf k m x q) : p = q := by
  obtain ⟨e, held, up⟩ := one
  obtain ⟨_, again, also⟩ := other
  cases held.symm.trans again
  exact Option.some.inj (up.symm.trans also)

/-- What has a root above it is not its own ancestor, by induction on the way to the root. -/
theorem Rooted.acyclic (rooted : Rooted k m x) : ¬Relation.TransGen (ParentOf k m) x x := by
  induction rooted with
  | root held top =>
    intro cycle
    obtain ⟨p, ⟨e, again, up⟩, _⟩ := Relation.TransGen.head'_iff.mp cycle
    cases held.symm.trans again
    cases top.symm.trans up
  | child parent rooted ih =>
    intro cycle
    obtain ⟨q, up, back⟩ := Relation.TransGen.head'_iff.mp cycle
    cases parent.unique up
    exact ih (Relation.TransGen.tail' back parent)

/-- A climb that has passed through some entries and has steps for all others ends, by
induction on the steps. -/
theorem climb_ends (forest : Forest k m) {keys : List κ}
    (all : ∀ x, (m x).isSome → x ∈ keys) (steps : Nat) :
    ∀ x seen, (m x).isSome → seen.Nodup → seen ⊆ keys →
      (∀ y ∈ seen, Relation.TransGen (ParentOf k m) y x) →
      keys.length ≤ seen.length + steps → climb k m steps x = true := by
  have passed : ∀ x (seen : List κ), (m x).isSome → seen.Nodup → seen ⊆ keys →
      (∀ y ∈ seen, Relation.TransGen (ParentOf k m) y x) →
      (x :: seen).Nodup ∧ x :: seen ⊆ keys := by
    intro x seen there distinct among below
    refine ⟨List.nodup_cons.mpr ⟨fun here => forest.acyclic x (below x here), distinct⟩, ?_⟩
    exact List.cons_subset.mpr ⟨all x there, among⟩
  induction steps with
  | zero =>
    intro x seen there distinct among below room
    obtain ⟨distinct, among⟩ := passed x seen there distinct among below
    have short := (List.subperm_of_subset distinct among).length_le
    rw [List.length_cons] at short
    omega
  | succ steps ih =>
    intro x seen there distinct among below room
    obtain ⟨e, held⟩ := Option.isSome_iff_exists.mp there
    cases up : k.parent e with
    | none => simp [climb, held, up]
    | some p =>
      have parent : ParentOf k m x p := ⟨e, held, up⟩
      obtain ⟨distinct, among⟩ := passed x seen there distinct among below
      have climbed := ih p (x :: seen) (forest.parent_present x p parent) distinct among
        (List.forall_mem_cons.mpr ⟨.single parent, fun y listed => (below y listed).tail parent⟩)
        (by rw [List.length_cons]; omega)
      simpa [climb, held, up] using climbed

/-- Every entry of a finite forest has a root above it. -/
theorem Forest.rooted (forest : Forest k m) {keys : List κ} (all : ∀ x, (m x).isSome → x ∈ keys)
    (there : (m x).isSome) : Rooted k m x :=
  climb_rooted _ x (climb_ends forest all keys.length x [] there List.nodup_nil
    (List.nil_subset _) nofun (by simp))

/-- Where every entry has a root above it there is a forest. -/
theorem forest_of_rooted (keyed : ∀ x e, m x = some e → k.key e = x)
    (rooted : ∀ x, (m x).isSome → Rooted k m x) : Forest k m := by
  refine ⟨keyed, fun x p parent => ?_, fun x cycle => ?_⟩
  · obtain ⟨e, held, up⟩ := parent
    cases rooted x (by rw [held]; rfl) with
    | root again top =>
      cases held.symm.trans again
      cases top.symm.trans up
    | child other rooted =>
      cases ParentOf.unique ⟨e, held, up⟩ other
      cases rooted with
      | root held _ => rw [held]; rfl
      | child parent _ =>
        obtain ⟨_, held, _⟩ := parent
        rw [held]; rfl
  · obtain ⟨_, ⟨_, held, _⟩, _⟩ := Relation.TransGen.head'_iff.mp cycle
    exact (rooted x (by rw [held]; rfl)).acyclic cycle

/-- A finite mirror is a forest exactly if every climb in it ends. -/
theorem forest_iff_climbs {keys : List κ} (keyed : ∀ x e, m x = some e → k.key e = x)
    (all : ∀ x, (m x).isSome ↔ x ∈ keys) :
    Forest k m ↔ ∀ x ∈ keys, climb k m keys.length x = true := by
  constructor
  · intro forest x listed
    exact climb_ends forest (fun x => (all x).mp) keys.length x [] ((all x).mpr listed)
      List.nodup_nil (List.nil_subset _) nofun (by simp)
  · intro climbs
    exact forest_of_rooted keyed fun x there => climb_rooted _ x (climbs x ((all x).mp there))

/-! Going down. -/

/-- There are steps left for all entries that are not above this one. -/
def Room (k : Keyed κ ε) (m : Mirror κ ε) (keys : List κ) (steps : Nat) (x : κ) : Prop :=
  ∃ above : List κ, above.Nodup ∧ above ⊆ keys ∧
    (∀ y ∈ above, Relation.TransGen (ParentOf k m) x y) ∧ keys.length ≤ above.length + steps

namespace Room
variable {keys : List κ} {steps : Nat}

theorem initially (x : κ) : Room k m keys keys.length x :=
  ⟨[], List.nodup_nil, List.nil_subset _, fun _ listed => absurd listed List.not_mem_nil,
    Nat.le_add_left _ _⟩

/-- There is no way down without a step, for the entry itself is not above itself. -/
theorem positive (forest : Forest k m) (listed : x ∈ keys) : ¬Room k m keys 0 x := by
  rintro ⟨above, distinct, among, passed, enough⟩
  have fresh : x ∉ above := fun cycle => forest.acyclic x (passed x cycle)
  have fits := (List.subperm_of_subset (List.nodup_cons.mpr ⟨fresh, distinct⟩)
    (List.cons_subset.mpr ⟨listed, among⟩)).length_le
  rw [List.length_cons] at fits
  omega

theorem child (room : Room k m keys (steps + 1) p) (forest : Forest k m) (listed : p ∈ keys)
    (below : ParentOf k m x p) : Room k m keys steps x := by
  obtain ⟨above, distinct, among, passed, enough⟩ := room
  refine ⟨p :: above, List.nodup_cons.mpr ⟨?_, distinct⟩, List.cons_subset.mpr ⟨listed, among⟩,
    ?_, ?_⟩
  · exact fun cycle => forest.acyclic p (passed p cycle)
  · intro y member
    rcases List.mem_cons.mp member with rfl | member
    · exact .single below
    · exact .head below (passed y member)
  · rw [List.length_cons]
    omega

/-- There are steps left as well for all that is further below. -/
theorem below (room : Room k m keys (steps + 1) p) (forest : Forest k m) (listed : p ∈ keys)
    (under : Relation.TransGen (ParentOf k m) x p) : Room k m keys steps x := by
  obtain ⟨above, distinct, among, passed, enough⟩ := room
  refine ⟨p :: above, List.nodup_cons.mpr ⟨?_, distinct⟩, List.cons_subset.mpr ⟨listed, among⟩,
    ?_, ?_⟩
  · exact fun cycle => forest.acyclic p (passed p cycle)
  · intro y member
    rcases List.mem_cons.mp member with rfl | member
    · exact under
    · exact under.trans (passed y member)
  · rw [List.length_cons]
    omega

end Room

/-! Mirrors whose entries have the same keys and parents. -/

/-- What an entry has to do with the others. -/
def Keyed.link (k : Keyed κ ε) (e : ε) : κ × Option κ := (k.key e, k.parent e)

section Same
variable {other : Mirror κ ε} (same : ∀ x, (other x).map k.link = (m x).map k.link)
include same

theorem same_entry (held : other x = some e) : ∃ d, m x = some d ∧ k.link d = k.link e := by
  have linked := same x
  rw [held] at linked
  exact Option.map_eq_some_iff.mp linked.symm

theorem parent_of_same : ParentOf k other x p ↔ ParentOf k m x p := by
  have onward : ∀ {one another : Mirror κ ε}, (∀ x, (another x).map k.link = (one x).map k.link) →
      ParentOf k another x p → ParentOf k one x p := by
    rintro one another same ⟨e, held, up⟩
    obtain ⟨d, there, linked⟩ := same_entry same held
    exact ⟨d, there, (congrArg Prod.snd linked).trans up⟩
  exact ⟨onward same, onward fun x => (same x).symm⟩

theorem Forest.of_same (forest : Forest k m) : Forest k other := by
  refine ⟨fun x e held => ?_, fun x p parent => ?_, fun x cycle => ?_⟩
  · obtain ⟨d, there, linked⟩ := same_entry same held
    exact (congrArg Prod.fst linked).symm.trans (forest.keyed x d there)
  · have there := congrArg Option.isSome (same p)
    rw [Option.isSome_map, Option.isSome_map] at there
    rw [there]
    exact forest.parent_present x p ((parent_of_same same).mp parent)
  · have within : ParentOf k other ≤ ParentOf k m := fun x p => (parent_of_same same).mp
    exact forest.acyclic x (Relation.TransGen.mono within x x cycle)

end Same

/-! The line of an entry: what is passed on a climb from it. -/

/-- The keys passed on a climb of at most this many steps, the entry's own first. -/
def line (k : Keyed κ ε) (m : Mirror κ ε) : Nat → κ → List κ
  | 0, x => [x]
  | steps + 1, x =>
    match (m x).bind k.parent with
    | none => [x]
    | some p => x :: line k m steps p

theorem line_self (steps : Nat) (x : κ) : x ∈ line k m steps x := by
  cases steps with
  | zero => exact List.mem_cons_self
  | succ steps =>
    rw [line]
    split <;> exact List.mem_cons_self

theorem parent_bind_iff : (m x).bind k.parent = some p ↔ ParentOf k m x p :=
  Option.bind_eq_some_iff

/-- A line goes up from parent to parent. -/
theorem above_of_line (steps : Nat) : ∀ x y, y ∈ line k m steps x →
    Relation.ReflTransGen (ParentOf k m) x y := by
  induction steps with
  | zero =>
    intro x y listed
    rw [List.mem_singleton.mp listed]
  | succ steps ih =>
    intro x y listed
    rw [line] at listed
    split at listed
    · rw [List.mem_singleton.mp listed]
    · rename_i p up
      rcases List.mem_cons.mp listed with rfl | listed
      · exact .refl
      · exact .head (parent_bind_iff.mp up) (ih p y listed)

/-- Where the climb ends, its line has all that is above. -/
theorem line_of_above (steps : Nat) : ∀ x y, climb k m steps x = true →
    Relation.ReflTransGen (ParentOf k m) x y → y ∈ line k m steps x := by
  induction steps with
  | zero =>
    intro x y climbed above
    obtain ⟨e, held, top⟩ := (Option.any_eq_true _ _).mp climbed
    rcases Relation.ReflTransGen.cases_head above with rfl | ⟨p, ⟨_, again, up⟩, _⟩
    · exact List.mem_cons_self
    · cases held.symm.trans again
      rw [up] at top
      cases top
  | succ steps ih =>
    intro x y climbed above
    rw [climb] at climbed
    rw [line]
    split at climbed
    · cases climbed
    · rename_i e held
      rcases Relation.ReflTransGen.cases_head above with rfl | ⟨p, parent, above⟩
      · split <;> exact List.mem_cons_self
      · obtain ⟨_, again, up⟩ := id parent
        cases held.symm.trans again
        rw [parent_bind_iff.mpr parent]
        rw [up] at climbed
        exact List.mem_cons_of_mem _ (ih p y climbed above)

/-- In a finite forest the line of an entry has exactly what is above it. -/
theorem mem_line_iff (forest : Forest k m) {keys : List κ} (all : ∀ x, (m x).isSome → x ∈ keys)
    (there : (m x).isSome) {y : κ} :
    y ∈ line k m keys.length x ↔ Relation.ReflTransGen (ParentOf k m) x y :=
  ⟨above_of_line _ x y, line_of_above _ x y (climb_ends forest all keys.length x [] there
    List.nodup_nil (List.nil_subset _) nofun (by simp))⟩

end ForestEdit
