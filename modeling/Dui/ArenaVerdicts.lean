import Dui.GestureArena

/-! What becomes of the members of an arena: each time one is added it is told one verdict, at
most one is accepted, and who accepted first while the arena was open wins it, except where a
sweep or a rejection forgets the claim. -/
namespace Dui
open Transition

section Calls
variable {μ : Type} [DecidableEq μ] {arena next : GestureArena μ} {pointer : PointerId}
variable {state : ArenaState μ} {member winner : μ} {call : ArenaCall μ}
variable {resolution : Option (Resolution μ)}

/-- What holds of an arena that exists. -/
structure ArenaState.Sound (state : ArenaState μ) : Prop where
  someone : state.members ≠ []
  distinct : state.members.Nodup
  eager : ∀ winner, state.eagerWinner = some winner → winner ∈ state.members
  closed : state.closed = true → 2 ≤ state.members.length ∧ state.eagerWinner = none

def GestureArena.Sound (arena : GestureArena μ) : Prop :=
  ∀ pointer state, arena.arenas pointer = some state → state.Sound

def ArenaCall.isAdd : ArenaCall μ → Bool
  | .add .. => true
  | _ => false

/-- A call that does nothing. -/
def GestureArena.Idle (arena : GestureArena μ) (call : ArenaCall μ) : Prop :=
  call.isAdd = false ∧ (call.pointer ∈ arena.resolving ∨ ∀ state, arena.arenas call.pointer = some state →
    match call with
    | .accept _ member =>
      member ∉ state.members ∨ state.closed = false ∧ state.eagerWinner ≠ none
    | .reject _ member => member ∉ state.members
    | _ => False)

/-- This member is the one that a call makes win an arena. -/
def ArenaCall.Chooses (state : ArenaState μ) (winner : μ) : ArenaCall μ → Prop
  | .close _ => state.eagerWinner = some winner ∨
      state.eagerWinner = none ∧ state.members = [winner]
  | .accept _ member => member = winner ∧ state.closed = true
  | .sweep _ => state.members.head? = some winner
  | _ => False

/-- What the calls do. -/
inductive GestureArena.Effect (arena : GestureArena μ) :
    ArenaCall μ → GestureArena μ → Option (Resolution μ) → Prop where
  | nothing {call : ArenaCall μ} (idle : arena.Idle call) : Effect arena call arena none
  | added {pointer : PointerId} {member : μ} {state : ArenaState μ}
      (free : pointer ∉ arena.resolving) (found : (arena.arenas pointer).getD {} = state)
      (opened : state.closed = false) (fresh : member ∉ state.members) :
      Effect arena (.add pointer (some member))
        (arena.put pointer (some { state with members := state.members ++ [member] })) none
  | shut {pointer : PointerId} {state : ArenaState μ} (free : pointer ∉ arena.resolving)
      (found : arena.arenas pointer = some state) (unclaimed : state.eagerWinner = none)
      (several : 2 ≤ state.members.length) :
      Effect arena (.close pointer) (arena.put pointer (some { state with closed := true })) none
  | claimed {pointer : PointerId} {member : μ} {state : ArenaState μ}
      (free : pointer ∉ arena.resolving) (found : arena.arenas pointer = some state)
      (listed : member ∈ state.members) (opened : state.closed = false)
      (unclaimed : state.eagerWinner = none) :
      Effect arena (.accept pointer member)
        (arena.put pointer (some { state with eagerWinner := some member })) none
  | won {call : ArenaCall μ} {winner : μ} {state : ArenaState μ}
      (free : call.pointer ∉ arena.resolving) (found : arena.arenas call.pointer = some state)
      (listed : winner ∈ state.members) (chosen : call.Chooses state winner) :
      Effect arena call (arena.put call.pointer none)
        (some { pointer := call.pointer, verdicts := (winner, .accept) ::
          (state.members.filter (· ≠ winner)).map fun member => (member, .reject) })
  | left {pointer : PointerId} {member : μ} {state left : ArenaState μ}
      (free : pointer ∉ arena.resolving) (found : arena.arenas pointer = some state)
      (listed : member ∈ state.members)
      (same : left = { state with
        members := state.members.erase member
        eagerWinner := if state.eagerWinner = some member then none else state.eagerWinner })
      (others : left.members ≠ []) (enough : left.closed = true → 2 ≤ left.members.length) :
      Effect arena (.reject pointer member) (arena.put pointer (some left))
        (some { pointer, verdicts := [(member, .reject)] })
  | promoted {pointer : PointerId} {member winner : μ} {state : ArenaState μ}
      (free : pointer ∉ arena.resolving) (found : arena.arenas pointer = some state)
      (listed : member ∈ state.members) (only : state.members.erase member = [winner])
      (closed : state.closed = true) :
      Effect arena (.reject pointer member) (arena.put pointer none)
        (some { pointer, verdicts := [(member, .reject), (winner, .accept)] })
  | dismissed {call : ArenaCall μ} {state : ArenaState μ} (quiet : call.isAdd = false)
      (free : call.pointer ∉ arena.resolving) (found : arena.arenas call.pointer = some state) :
      Effect arena call (arena.put call.pointer none)
        (some { pointer := call.pointer,
                verdicts := state.members.map fun member => (member, .reject) })

omit [DecidableEq μ] in
theorem put_put (arena : GestureArena μ) (pointer : PointerId) (first last : Option (ArenaState μ)) :
    (arena.put pointer first).put pointer last = arena.put pointer last := by
  simp only [GestureArena.put, Function.update_idem]

omit [DecidableEq μ] in
theorem put_self (arena : GestureArena μ) (pointer : PointerId) (state : Option (ArenaState μ)) :
    (arena.put pointer state).arenas pointer = state := Function.update_self ..

omit [DecidableEq μ] in
theorem put_other {other : PointerId} (different : other ≠ pointer)
    (state : Option (ArenaState μ)) :
    (arena.put pointer state).arenas other = arena.arenas other :=
  Function.update_of_ne different _ _

theorem resolve_winner_eq (found : arena.arenas pointer = some state) (winner : μ) :
    arena.resolveWinner pointer winner = (arena.put pointer none,
      some { pointer, verdicts := (winner, .accept) ::
        (state.members.filter (· ≠ winner)).map fun member => (member, .reject) }) := by
  unfold GestureArena.resolveWinner
  rw [found]

theorem add_effect {entered : Option μ} (called : arena.add pointer entered = .ok next) :
    arena.Effect (.add pointer entered) next none := by
  unfold GestureArena.add at called
  cases entered with
  | none => cases called
  | some member =>
    dsimp only at called
    split at called
    case isTrue => cases called
    case isFalse free =>
      split at called
      case isTrue => cases called
      case isFalse opened =>
        split at called
        case isTrue => cases called
        case isFalse fresh =>
          cases called
          exact .added free rfl (Bool.not_eq_true _ ▸ opened) fresh

theorem close_effect (sound : arena.Sound) :
    arena.Effect (.close pointer) (arena.close pointer).1 (arena.close pointer).2 := by
  unfold GestureArena.close
  split
  case isTrue suppressed => exact .nothing ⟨rfl, .inl suppressed⟩
  case isFalse free =>
    cases found : arena.arenas pointer with
    | none => exact .nothing ⟨rfl, .inr fun state same => nomatch found.symm.trans same⟩
    | some state =>
      obtain ⟨someone, _, eager, _⟩ := sound pointer state found
      have resolved : ∀ winner, (arena.put pointer
          (some { state with closed := true })).resolveWinner pointer winner =
            (arena.put pointer none, some { pointer, verdicts := (winner, .accept) ::
              (state.members.filter (· ≠ winner)).map fun member => (member, .reject) }) := by
        intro winner
        rw [resolve_winner_eq (put_self ..), put_put]
      dsimp only
      split
      case h_1 _ winner claimed =>
        rw [resolved]
        exact .won free found (eager winner claimed) (.inl claimed)
      case h_2 only unclaimed alone =>
        rw [resolved]
        refine .won free found ?_ (.inr ⟨unclaimed, alone⟩)
        rw [alone]
        exact List.mem_singleton_self only
      case h_3 _ nobody => exact absurd nobody someone
      case h_4 unclaimed single none =>
        refine .shut free found unclaimed ?_
        match same : state.members with
        | [] => exact absurd same none
        | [only] => exact absurd same (single only)
        | first :: second :: rest =>
          rw [List.length_cons, List.length_cons]
          omega

theorem accept_effect :
    arena.Effect (.accept pointer member) (arena.accept pointer member).1
      (arena.accept pointer member).2 := by
  unfold GestureArena.accept
  split
  case isTrue suppressed => exact .nothing ⟨rfl, .inl suppressed⟩
  case isFalse free =>
    cases found : arena.arenas pointer with
    | none => exact .nothing ⟨rfl, .inr fun state same => nomatch found.symm.trans same⟩
    | some state =>
      have idle : (member ∉ state.members ∨ state.closed = false ∧ state.eagerWinner ≠ none) →
          arena.Effect (.accept pointer member) arena none := by
        refine fun idle => .nothing ⟨rfl, .inr fun other same => ?_⟩
        cases found.symm.trans same
        exact idle
      dsimp only
      split
      case isTrue absent => exact idle (.inl absent)
      case isFalse present =>
        rw [not_not] at present
        split
        case isTrue closed =>
          rw [resolve_winner_eq found]
          exact .won free found present ⟨rfl, closed⟩
        case isFalse opened =>
          rw [Bool.not_eq_true] at opened
          split
          case isTrue unclaimed => exact .claimed free found present opened unclaimed
          case isFalse claimed => exact idle (.inr ⟨opened, claimed⟩)

theorem reject_effect (sound : arena.Sound) :
    arena.Effect (.reject pointer member) (arena.reject pointer member).1
      (arena.reject pointer member).2 := by
  unfold GestureArena.reject
  split
  case isTrue suppressed => exact .nothing ⟨rfl, .inl suppressed⟩
  case isFalse free =>
    cases found : arena.arenas pointer with
    | none => exact .nothing ⟨rfl, .inr fun state same => nomatch found.symm.trans same⟩
    | some state =>
      dsimp only
      split
      case isTrue absent =>
        refine .nothing ⟨rfl, .inr fun other same => ?_⟩
        cases found.symm.trans same
        exact absent
      case isFalse present =>
        rw [not_not] at present
        split
        case h_1 alone =>
          have members : state.members = [member] := by
            obtain ⟨first, rest, same⟩ := List.exists_cons_of_ne_nil (sound pointer state found).1
            have length := List.length_erase_of_mem present
            rw [alone, same] at length
            have short : rest = [] := List.length_eq_zero_iff.mp (by simpa using length.symm)
            rw [same, short] at present ⊢
            rw [List.mem_singleton.mp present]
          have verdicts : [(member, Verdict.reject)] =
              state.members.map fun member => (member, Verdict.reject) := by
            rw [members]
            rfl
          rw [verdicts]
          exact .dismissed rfl free found
        case h_2 winner only closed => exact .promoted free found present only closed
        case h_3 none single =>
          refine .left free found present rfl none fun closed => ?_
          match same : state.members.erase member with
          | [] => exact absurd same none
          | [only] => exact absurd closed (single only same)
          | first :: second :: rest =>
            rw [List.length_cons, List.length_cons]
            omega

theorem sweep_effect (sound : arena.Sound) :
    arena.Effect (.sweep pointer) (arena.sweep pointer).1 (arena.sweep pointer).2 := by
  unfold GestureArena.sweep
  split
  case isTrue suppressed => exact .nothing ⟨rfl, .inl suppressed⟩
  case isFalse free =>
    cases found : arena.arenas pointer with
    | none => exact .nothing ⟨rfl, .inr fun state same => nomatch found.symm.trans same⟩
    | some state =>
      dsimp only
      split
      case h_1 nobody => exact absurd nobody (sound pointer state found).someone
      case h_2 first rest same =>
        rw [resolve_winner_eq found]
        refine .won free found ?_ ?_
        · rw [same]
          exact List.mem_cons_self
        · exact congrArg List.head? same

theorem cancel_effect :
    arena.Effect (.cancel pointer) (arena.cancel pointer).1 (arena.cancel pointer).2 := by
  unfold GestureArena.cancel
  split
  case isTrue suppressed => exact .nothing ⟨rfl, .inl suppressed⟩
  case isFalse free =>
    cases found : arena.arenas pointer with
    | none => exact .nothing ⟨rfl, .inr fun state same => nomatch found.symm.trans same⟩
    | some state => exact .dismissed rfl free found

/-- A call has one of the effects. -/
theorem perform_effect (sound : arena.Sound)
    (performed : arena.perform call = .ok (next, resolution)) :
    arena.Effect call next resolution := by
  cases call with
  | add pointer member =>
    obtain ⟨after, entered, same⟩ := map_ok_iff.mp performed
    cases same
    exact add_effect entered
  | close pointer =>
    obtain ⟨rfl, rfl⟩ := Prod.mk.inj (Except.ok.inj performed)
    exact close_effect sound
  | accept pointer member =>
    obtain ⟨rfl, rfl⟩ := Prod.mk.inj (Except.ok.inj performed)
    exact accept_effect
  | reject pointer member =>
    obtain ⟨rfl, rfl⟩ := Prod.mk.inj (Except.ok.inj performed)
    exact reject_effect sound
  | sweep pointer =>
    obtain ⟨rfl, rfl⟩ := Prod.mk.inj (Except.ok.inj performed)
    exact sweep_effect sound
  | cancel pointer =>
    obtain ⟨rfl, rfl⟩ := Prod.mk.inj (Except.ok.inj performed)
    exact cancel_effect

/-! What the effects have in common. -/

/-- The members of the arena of a pointer, if there is one. -/
def GestureArena.membersOf (arena : GestureArena μ) (pointer : PointerId) : List μ :=
  (arena.arenas pointer).elim [] ArenaState.members

/-- Is a member added? -/
def ArenaCall.adds (call : ArenaCall μ) (member : μ) : Bool :=
  match call with
  | .add _ added => added = some member
  | _ => false

theorem effect_sound (sound : arena.Sound) (effect : arena.Effect call next resolution) :
    next.Sound := by
  have putting : ∀ {pointer : PointerId} {state : Option (ArenaState μ)},
      (∀ now, state = some now → now.Sound) → (arena.put pointer state).Sound := by
    intro pointer state good other now found
    by_cases same : other = pointer
    · subst same
      rw [put_self] at found
      exact good now found
    · rw [put_other same] at found
      exact sound other now found
  cases effect with
  | nothing => exact sound
  | @added pointer member state free found opened fresh =>
    refine putting fun now same => ?_
    cases same
    cases there : arena.arenas pointer with
    | none =>
      rw [there] at found
      cases found
      exact ⟨by simp, by simp, nofun, nofun⟩
    | some before =>
      rw [there] at found
      cases found
      obtain ⟨_, distinct, eager, _⟩ := sound pointer before there
      refine ⟨by simp, ?_, fun winner claimed => ?_, fun closed => ?_⟩
      · exact List.nodup_append_comm.mp (List.nodup_cons.mpr ⟨fresh, distinct⟩)
      · exact List.mem_append_left _ (eager winner claimed)
      · cases (show before.closed = true from closed).symm.trans opened
  | @shut pointer state free found unclaimed several =>
    obtain ⟨someone, distinct, eager, _⟩ := sound pointer state found
    refine putting fun now same => ?_
    cases same
    exact ⟨someone, distinct, eager, fun _ => ⟨several, unclaimed⟩⟩
  | @claimed pointer member state free found listed opened unclaimed =>
    obtain ⟨someone, distinct, _, _⟩ := sound pointer state found
    refine putting fun now same => ?_
    cases same
    refine ⟨someone, distinct, fun winner same => ?_, fun closed => ?_⟩
    · cases same
      exact listed
    · rw [show state.closed = true from closed] at opened
      cases opened
  | won | promoted | dismissed => exact putting nofun
  | @left pointer member state left free found listed same others enough =>
    obtain ⟨_, distinct, eager, closed⟩ := sound pointer state found
    refine putting fun now kept => ?_
    cases kept
    subst same
    refine ⟨others, distinct.erase member, fun winner claimed => ?_, fun shut =>
      ⟨enough shut, ?_⟩⟩
    · dsimp only at claimed
      split at claimed
      case isTrue => cases claimed
      case isFalse other =>
        refine (List.mem_erase_of_ne ?_).mpr (eager winner claimed)
        rintro rfl
        exact other claimed
    · dsimp only
      rw [(closed shut).2]
      split <;> rfl

/-- A call leaves the pointers alone that are not its own. -/
theorem effect_others (effect : arena.Effect call next resolution) {other : PointerId}
    (different : other ≠ call.pointer) : next.arenas other = arena.arenas other := by
  cases effect with
  | nothing => rfl
  | added | shut | claimed | won | left | promoted | dismissed => exact put_other different _

theorem effect_pointer (effect : arena.Effect call next resolution) :
    next.resolving = arena.resolving ∧
      ∀ started, resolution = some started → started.pointer = call.pointer := by
  cases effect with
  | nothing | added | shut | claimed => exact ⟨rfl, nofun⟩
  | won | left | promoted | dismissed =>
    refine ⟨rfl, fun started same => ?_⟩
    cases same
    rfl

/-- Who is in the arena or enters it stays or is to be told a verdict. -/
theorem effect_counts (sound : arena.Sound) (effect : arena.Effect call next resolution)
    (member : μ) :
    (arena.membersOf call.pointer).count member + (if call.adds member then 1 else 0) =
      (next.membersOf call.pointer).count member +
        ((verdictsOf resolution).map Prod.fst).count member := by
  have told : ∀ (members : List μ) (verdict : Verdict),
      ((members.map fun member => (member, verdict)).map Prod.fst) = members := by
    intro members verdict
    rw [List.map_map]
    exact List.map_id members
  have quiet : ∀ {call : ArenaCall μ}, call.isAdd = false → call.adds member = false := by
    intro call quiet
    cases call with
    | add => cases quiet
    | _ => rfl
  have removed : ∀ {one : μ} {members : List μ}, one ∈ members →
      members.count member = (one :: members.erase one).count member :=
    fun listed => (List.perm_cons_erase listed).count_eq member
  cases effect with
  | nothing idle =>
    rw [quiet idle.1]
    rfl
  | @added pointer entered state free found opened fresh =>
    have before : (arena.membersOf pointer) = state.members := by
      rw [← found, GestureArena.membersOf]
      cases arena.arenas pointer <;> rfl
    have after : (arena.put pointer (some { state with
        members := state.members ++ [entered] })).membersOf pointer = state.members ++ [entered] := by
      rw [GestureArena.membersOf, put_self]
      rfl
    simp only [ArenaCall.pointer, ArenaCall.adds, before, after, verdictsOf, List.count_append,
      Option.elim_none, List.map_nil, List.count_nil, Nat.add_zero, List.count_singleton,
      Option.some.injEq, decide_eq_true_eq, beq_iff_eq]
  | @shut pointer state free found =>
    simp [ArenaCall.pointer, ArenaCall.adds, GestureArena.membersOf, found, put_self, verdictsOf]
  | @claimed pointer claimant state free found =>
    simp [ArenaCall.pointer, ArenaCall.adds, GestureArena.membersOf, found, put_self, verdictsOf]
  | @won call winner state free found listed chosen =>
    have adds : call.isAdd = false := by
      cases call with
      | add => exact chosen.elim
      | _ => rfl
    have distinct := (sound call.pointer state found).distinct
    rw [quiet adds, GestureArena.membersOf, GestureArena.membersOf, found, put_self]
    simp only [verdictsOf, Option.elim_some, Option.elim_none, List.map_cons, told]
    have kept : (fun other => other != winner) = fun other => decide (other ≠ winner) := by
      funext other
      by_cases same : other = winner <;> simp [same]
    rw [removed listed, distinct.erase_eq_filter, kept, List.count_nil, Nat.zero_add,
      if_neg Bool.false_ne_true, Nat.add_zero]
  | @left pointer rejected state left free found listed same =>
    subst same
    rw [quiet rfl, GestureArena.membersOf, GestureArena.membersOf, ArenaCall.pointer, found,
      put_self]
    simp only [verdictsOf, Option.elim_some, List.map_cons, List.map_nil]
    rw [removed listed, ← List.singleton_append, List.count_append]
    simp [Nat.add_comm]
  | @promoted pointer rejected winner state free found listed only =>
    rw [quiet rfl, GestureArena.membersOf, GestureArena.membersOf, ArenaCall.pointer, found,
      put_self]
    simp only [verdictsOf, Option.elim_some, Option.elim_none, List.map_cons, List.map_nil]
    rw [removed listed, only]
    simp
  | @dismissed call state adds free found =>
    rw [quiet adds, GestureArena.membersOf, GestureArena.membersOf, found, put_self]
    simp only [verdictsOf, Option.elim_some, Option.elim_none, told, List.count_nil, Nat.zero_add]
    rfl

/-- At most one is to be accepted, and none while the arena stays. -/
theorem effect_accepts (effect : arena.Effect call next resolution) :
    ((verdictsOf resolution).map Prod.snd).count .accept ≤ 1 ∧
      ((next.arenas call.pointer).isSome →
        ((verdictsOf resolution).map Prod.snd).count .accept = 0) := by
  have rejects : ∀ members : List μ,
      ((members.map fun member => (member, Verdict.reject)).map Prod.snd).count .accept = 0 := by
    intro members
    rw [List.map_map, List.count_eq_zero]
    intro listed
    obtain ⟨_, _, same⟩ := List.mem_map.mp listed
    cases same
  have gone : ∀ {pointer : PointerId}, ¬((arena.put pointer none).arenas pointer).isSome := by
    intro pointer there
    rw [put_self] at there
    cases there
  cases effect with
  | nothing | added | shut | claimed => exact ⟨Nat.zero_le _, fun _ => rfl⟩
  | won =>
    refine ⟨?_, fun there => absurd there gone⟩
    simp only [verdictsOf, Option.elim_some, List.map_cons, List.count_cons_self, rejects]
    exact le_rfl
  | left => exact ⟨Nat.zero_le _, fun _ => rfl⟩
  | promoted => exact ⟨le_rfl, fun there => absurd there gone⟩
  | dismissed =>
    simp only [verdictsOf, Option.elim_some, rejects]
    exact ⟨Nat.zero_le _, fun _ => trivial⟩

/-- Nobody is told anything where there is no arena. -/
theorem effect_nobody (effect : arena.Effect call next resolution)
    (nobody : arena.arenas call.pointer = none) : resolution = none := by
  cases effect with
  | nothing | added | shut | claimed => rfl
  | won _ found | left _ found | promoted _ found | dismissed _ _ found =>
    cases nobody.symm.trans found

end Calls

/-! Runs. -/

section Runs
variable {μ : Type} [DecidableEq μ]

/-- Is a member of an arena told that it is accepted? -/
def ArenaEvent.accepts (pointer : PointerId) (number : Nat) : ArenaEvent μ → Bool
  | .told other count _ .accept => other = pointer ∧ count = number
  | _ => false

namespace ArenaRun
variable (run : ArenaRun μ) (pointer : PointerId) (number : Nat) (member : μ)

/-- The verdicts that resolutions of an arena have yet to give. -/
def due : List (μ × Verdict) :=
  run.stack.flatMap fun frame =>
    if frame.pointer = pointer ∧ frame.number = number then frame.verdicts else []

/-- Who is in an arena. -/
def current : List μ :=
  if number = run.number pointer then run.arena.membersOf pointer else []

/-- How often a member has been added to an arena. -/
def timesAdded : Nat := run.log.count (.added pointer number member)

/-- How often a member of an arena has been told a verdict. -/
def timesTold : Nat :=
  run.log.count (.told pointer number member .accept) +
    run.log.count (.told pointer number member .reject)

/-- How often members of an arena have been accepted. -/
def timesAccepted : Nat := run.log.countP (ArenaEvent.accepts pointer number)

/-- What holds of a run: whoever is added is in the arena, or is to be told a verdict, or has
been told one; and one member at most is accepted, once the arena is gone. -/
structure Sound : Prop where
  arenas : run.arena.Sound
  accounted : ∀ pointer number member, run.timesAdded pointer number member =
    run.timesTold pointer number member +
      ((run.due pointer number).map Prod.fst).count member +
      (run.current pointer number).count member
  accepted : ∀ pointer number, run.timesAccepted pointer number +
    ((run.due pointer number).map Prod.snd).count .accept ≤ 1
  unresolved : ∀ pointer number, run.number pointer ≤ number →
    run.timesAccepted pointer number +
      ((run.due pointer number).map Prod.snd).count .accept = 0

end ArenaRun

variable {run next : ArenaRun μ} {call : ArenaCall μ} {after : GestureArena μ}
variable {resolution : Option (Resolution μ)}

/-- Winning tells nobody a verdict, and adds nobody. -/
theorem won_by_events {event : ArenaEvent μ} (listed : event ∈ run.wonBy call resolution) :
    ∃ winner, event = .won call.pointer (run.number call.pointer) winner (run.claimsOf call) := by
  obtain ⟨⟨winner, verdict⟩, _, same⟩ := List.mem_filterMap.mp listed
  cases verdict <;> cases same
  exact ⟨winner, rfl⟩

omit [DecidableEq μ] in
theorem added_by_events {event : ArenaEvent μ} (listed : event ∈ run.addedBy call) :
    ∃ member, event = .added call.pointer (run.number call.pointer) member := by
  unfold ArenaRun.addedBy at listed
  split at listed
  case h_1 pointer member => exact ⟨member, List.mem_singleton.mp listed⟩
  case h_2 => cases listed

theorem begin_added (pointer : PointerId) (number : Nat) (member : μ) :
    (run.begin call after resolution).timesAdded pointer number member =
      run.timesAdded pointer number member +
        if pointer = call.pointer ∧ number = run.number call.pointer then
          if call.adds member then 1 else 0 else 0 := by
  change (run.log ++ run.addedBy call ++ run.wonBy call resolution).count _ = _
  have none : (run.wonBy call resolution).count (.added pointer number member) = 0 := by
    refine List.count_eq_zero_of_not_mem fun listed => ?_
    obtain ⟨_, same⟩ := won_by_events listed
    cases same
  rw [List.count_append, List.count_append, none, Nat.add_zero, ArenaRun.timesAdded]
  congr 1
  cases call with
  | add other entered =>
    cases entered with
    | none => simp [ArenaRun.addedBy, ArenaCall.adds]
    | some entered =>
      simp only [ArenaRun.addedBy, List.count_singleton, beq_iff_eq, ArenaEvent.added.injEq,
        ArenaCall.pointer, ArenaCall.adds, Option.some.injEq, decide_eq_true_eq]
      by_cases own : pointer = other ∧ number = run.number other
      · obtain ⟨rfl, rfl⟩ := own
        simp
      · rw [if_neg own, if_neg]
        rintro ⟨rfl, rfl, _⟩
        exact own ⟨rfl, rfl⟩
  | _ => simp [ArenaRun.addedBy, ArenaCall.adds]

theorem begin_told (pointer : PointerId) (number : Nat) (member : μ) :
    (run.begin call after resolution).timesTold pointer number member =
      run.timesTold pointer number member := by
  have none : ∀ verdict, (run.log ++ run.addedBy call ++ run.wonBy call resolution).count
      (.told pointer number member verdict) = run.log.count (.told pointer number member verdict) := by
    intro verdict
    rw [List.count_append, List.count_append, List.count_eq_zero_of_not_mem (l := run.addedBy call),
      List.count_eq_zero_of_not_mem (l := run.wonBy call resolution)]
    · rfl
    · intro listed
      obtain ⟨_, same⟩ := won_by_events listed
      cases same
    · intro listed
      obtain ⟨_, same⟩ := added_by_events listed
      cases same
  exact congrArg₂ _ (none .accept) (none .reject)

theorem begin_accepted (pointer : PointerId) (number : Nat) :
    (run.begin call after resolution).timesAccepted pointer number =
      run.timesAccepted pointer number := by
  change (run.log ++ run.addedBy call ++ run.wonBy call resolution).countP _ = run.log.countP _
  rw [List.countP_append, List.countP_append]
  have added : (run.addedBy call).countP (ArenaEvent.accepts pointer number) = 0 := by
    refine List.countP_eq_zero.mpr fun event listed => ?_
    obtain ⟨_, rfl⟩ := added_by_events listed
    exact nofun
  have won : (run.wonBy call resolution).countP (ArenaEvent.accepts pointer number) = 0 := by
    refine List.countP_eq_zero.mpr fun event listed => ?_
    obtain ⟨_, rfl⟩ := won_by_events listed
    exact nofun
  rw [added, won]
  rfl

/-- The verdicts that are due once a call has changed the arenas. -/
theorem begin_due (effect : run.arena.Effect call after resolution) (pointer : PointerId)
    (number : Nat) : (run.begin call after resolution).due pointer number =
      (if pointer = call.pointer ∧ number = run.number call.pointer then verdictsOf resolution
        else []) ++ run.due pointer number := by
  cases resolution with
  | none =>
    change run.due pointer number = _
    split <;> rfl
  | some started =>
    have same := (effect_pointer effect).2 started rfl
    change (if started.pointer = pointer ∧ run.number call.pointer = number then started.verdicts
      else []) ++ run.due pointer number = _
    rw [same]
    simp only [verdictsOf, Option.elim_some, eq_comm]

theorem begin_number (pointer : PointerId) : (run.begin call after resolution).number pointer =
    if (run.arena.arenas call.pointer).isSome && (after.arenas call.pointer).isNone then
      Function.update run.number call.pointer (run.number call.pointer + 1) pointer
    else run.number pointer := by
  unfold ArenaRun.begin
  dsimp only
  split <;> rfl

/-- Who is in an arena once a call has changed it. -/
theorem begin_current (effect : run.arena.Effect call after resolution) (pointer : PointerId)
    (number : Nat) : (run.begin call after resolution).current pointer number =
      if pointer = call.pointer then
        if number = run.number call.pointer then after.membersOf call.pointer else []
      else run.current pointer number := by
  have members : ∀ pointer, (run.begin call after resolution).arena.membersOf pointer =
      after.membersOf pointer := by
    intro pointer
    cases resolution <;> rfl
  unfold ArenaRun.current
  rw [members, begin_number]
  by_cases own : pointer = call.pointer
  · subst own
    rw [if_pos rfl, Function.update_self]
    split
    case isTrue gone =>
      rw [Bool.and_eq_true, Option.isNone_iff_eq_none] at gone
      have nobody : after.membersOf call.pointer = [] := by
        rw [GestureArena.membersOf, gone.2]
        rfl
      rw [nobody]
      split <;> split <;> rfl
    case isFalse => rfl
  · rw [if_neg own, Function.update_of_ne own, ite_self]
    unfold GestureArena.membersOf
    rw [effect_others effect own]

theorem begin_sound (sound : run.Sound) (effect : run.arena.Effect call after resolution) :
    (run.begin call after resolution).Sound := by
  refine ⟨?_, fun pointer number member => ?_, fun pointer number => ?_,
    fun pointer number later => ?_⟩
  · have kept := effect_sound sound.arenas effect
    cases resolution <;> exact kept
  · have counts := effect_counts sound.arenas effect member
    have before := sound.accounted pointer number member
    rw [begin_added, begin_told, begin_due effect, begin_current effect, List.map_append,
      List.count_append]
    by_cases own : pointer = call.pointer
    · by_cases here : number = run.number call.pointer
      · subst own here
        rw [ArenaRun.current, if_pos rfl] at before
        simp only [and_self, if_true]
        omega
      · rw [ArenaRun.current, own, if_neg here] at before
        simpa [own, here] using before
    · rw [if_neg fun both => own both.1, if_neg fun both => own both.1, if_neg own]
      simpa using before
  · obtain ⟨once, _⟩ := effect_accepts effect
    have before := sound.accepted pointer number
    rw [begin_accepted, begin_due effect, List.map_append, List.count_append]
    split
    case isTrue here =>
      obtain ⟨rfl, rfl⟩ := here
      have none := sound.unresolved call.pointer _ le_rfl
      omega
    case isFalse =>
      simpa using before
  · obtain ⟨_, staying⟩ := effect_accepts effect
    rw [begin_accepted, begin_due effect, List.map_append, List.count_append]
    rw [begin_number] at later
    split at later
    case isTrue gone =>
      have further : run.number pointer ≤ number ∧
          ¬(pointer = call.pointer ∧ number = run.number call.pointer) := by
        by_cases own : pointer = call.pointer
        · subst own
          rw [Function.update_self] at later
          omega
        · rw [Function.update_of_ne own] at later
          exact ⟨later, fun both => own both.1⟩
      rw [if_neg further.2]
      simpa using sound.unresolved pointer number further.1
    case isFalse stays =>
      have before := sound.unresolved pointer number later
      split
      case isFalse => simpa using before
      case isTrue =>
        have none : ((verdictsOf resolution).map Prod.snd).count .accept = 0 := by
          cases there : run.arena.arenas call.pointer with
          | none =>
            rw [effect_nobody effect there]
            rfl
          | some state =>
            refine staying ?_
            rw [there, Option.isSome_some, Bool.true_and, Option.isNone_iff_eq_none] at stays
            exact Option.isSome_iff_ne_none.mpr stays
        omega

/-! The steps of a resolution. -/

/-- A step that leaves the arenas alone and moves a verdict at most from those due to those
given. -/
theorem moved_sound (sound : run.Sound) (arenas : next.arena.arenas = run.arena.arenas)
    (numbers : next.number = run.number)
    (added : ∀ pointer number member,
      next.timesAdded pointer number member = run.timesAdded pointer number member)
    (told : ∀ pointer number member, next.timesTold pointer number member +
        ((next.due pointer number).map Prod.fst).count member =
      run.timesTold pointer number member + ((run.due pointer number).map Prod.fst).count member)
    (accepted : ∀ pointer number, next.timesAccepted pointer number +
        ((next.due pointer number).map Prod.snd).count .accept =
      run.timesAccepted pointer number +
        ((run.due pointer number).map Prod.snd).count .accept) : next.Sound := by
  have current : ∀ pointer number, next.current pointer number = run.current pointer number := by
    intro pointer number
    unfold ArenaRun.current GestureArena.membersOf
    rw [arenas, numbers]
  refine ⟨fun pointer state found => ?_, fun pointer number member => ?_, fun pointer number => ?_,
    fun pointer number later => ?_⟩
  · rw [arenas] at found
    exact sound.arenas pointer state found
  · rw [added, told, current]
    exact sound.accounted pointer number member
  · rw [accepted]
    exact sound.accepted pointer number
  · rw [numbers] at later
    rw [accepted]
    exact sound.unresolved pointer number later

theorem tell_sound (sound : run.Sound) (stepped : run.step .tell = some next) : next.Sound := by
  rw [ArenaRun.step] at stepped
  split at stepped
  case h_2 => cases stepped
  case h_1 _ pointer number member verdict rest failure below same =>
    cases stepped
    have due : ∀ other count, run.due other count =
        (if pointer = other ∧ number = count then [(member, verdict)] else []) ++
          (ArenaRun.mk run.arena (⟨pointer, number, rest, true, failure⟩ :: below) run.outcome
            run.number run.claims
            (run.log ++ [.told pointer number member verdict])).due other count := by
      intro other count
      unfold ArenaRun.due
      rw [same, List.flatMap_cons, List.flatMap_cons]
      split <;> rfl
    refine moved_sound sound rfl rfl (fun other count who => ?_) (fun other count who => ?_)
      fun other count => ?_
    · simp [ArenaRun.timesAdded]
    · rw [due, List.map_append, List.count_append, ← Nat.add_assoc]
      congr 1
      by_cases here : pointer = other ∧ number = count
      · obtain ⟨rfl, rfl⟩ := here
        by_cases same : member = who
        · subst same
          cases verdict <;> simp [ArenaRun.timesTold] <;> omega
        · simp [ArenaRun.timesTold, same]
      · have elsewhere : ∀ given, ArenaEvent.told pointer number member verdict ≠
            .told other count who given := by
          rintro given same
          cases same
          exact here ⟨rfl, rfl⟩
        simp [ArenaRun.timesTold, here, elsewhere]
    · rw [due, List.map_append, List.count_append, ← Nat.add_assoc]
      congr 1
      by_cases here : pointer = other ∧ number = count
      · obtain ⟨rfl, rfl⟩ := here
        cases verdict <;> simp [ArenaRun.timesAccepted, ArenaEvent.accepts]
      · cases verdict <;> simp [ArenaRun.timesAccepted, ArenaEvent.accepts, here]

theorem callback_ends_sound (sound : run.Sound) {failure : Option Failure}
    (stepped : run.step (.callbackEnds failure) = some next) : next.Sound := by
  rw [ArenaRun.step] at stepped
  split at stepped
  case h_2 => cases stepped
  case h_1 _ pointer number verdicts earlier below same =>
    cases stepped
    have due : ∀ other count, (ArenaRun.mk run.arena
        (⟨pointer, number, verdicts, false, earlier.or failure⟩ :: below) run.outcome run.number
          run.claims run.log).due other count = run.due other count := by
      intro other count
      unfold ArenaRun.due
      rw [same]
      rfl
    refine moved_sound sound rfl rfl (fun _ _ _ => rfl) (fun other count who => ?_)
      fun other count => ?_
    · rw [due]
      rfl
    · rw [due]
      rfl

theorem resolved_sound (sound : run.Sound) (stepped : run.step .resolved = some next) :
    next.Sound := by
  rw [ArenaRun.step] at stepped
  split at stepped
  case h_2 => cases stepped
  case h_1 _ pointer number failure below same =>
    cases stepped
    have due : ∀ other count, (ArenaRun.mk
        { run.arena with resolving := run.arena.resolving.erase pointer } below
          (failure.elim (.ok ()) .error) run.number run.claims run.log).due other count =
        run.due other count := by
      intro other count
      unfold ArenaRun.due
      rw [same, List.flatMap_cons, ite_self, List.nil_append]
    refine moved_sound sound rfl rfl (fun _ _ _ => rfl) (fun other count who => ?_)
      fun other count => ?_
    · rw [due]
      rfl
    · rw [due]
      rfl

/-- What holds of a run holds after any step. -/
theorem arena_step_sound {action : ArenaAction μ} (sound : run.Sound)
    (stepped : run.step action = some next) : next.Sound := by
  cases action with
  | tell => exact tell_sound sound stepped
  | callbackEnds failure => exact callback_ends_sound sound stepped
  | resolved => exact resolved_sound sound stepped
  | call call =>
    rw [ArenaRun.step] at stepped
    split at stepped
    case isFalse => cases stepped
    case isTrue =>
      split at stepped
      case h_1 =>
        cases stepped
        exact moved_sound sound rfl rfl (fun _ _ _ => rfl) (fun _ _ _ => rfl) fun _ _ => rfl
      case h_2 after resolution performed =>
        cases stepped
        exact begin_sound sound (perform_effect sound.arenas performed)

theorem arena_runs_sound (reached : Reachable (arenaMachine μ) run) : run.Sound := by
  refine reached.invariant ArenaRun.Sound ?_ fun _ _ _ sound _ stepped =>
    arena_step_sound sound stepped
  rintro _ rfl
  refine ⟨nofun, fun pointer number member => ?_, fun pointer number => Nat.zero_le _,
    fun pointer number _ => rfl⟩
  unfold ArenaRun.current
  split <;> rfl

/-- Whenever an arena is gone and its verdicts are given, its members have been told a verdict
each time they were added, and at most one of them is accepted. An eager winner is a member,
and an arena that stays closed has several members and no eager winner. -/
theorem arena_verdicts (reached : Reachable (arenaMachine μ) run) :
    (∀ pointer number member, number < run.number pointer →
      (∀ frame ∈ run.stack, ¬(frame.pointer = pointer ∧ frame.number = number)) →
      run.timesTold pointer number member = run.timesAdded pointer number member) ∧
    (∀ pointer number, run.timesAccepted pointer number ≤ 1) ∧
    ∀ pointer state, run.arena.arenas pointer = some state →
      (∀ winner, state.eagerWinner = some winner → winner ∈ state.members) ∧
      (state.closed = true → 2 ≤ state.members.length ∧ state.eagerWinner = none) := by
  have sound := arena_runs_sound reached
  refine ⟨fun pointer number member gone settled => ?_, fun pointer number => ?_,
    fun pointer state found => ?_⟩
  · have counts := sound.accounted pointer number member
    have due : run.due pointer number = [] := by
      refine List.flatMap_eq_nil_iff.mpr fun frame listed => ?_
      rw [if_neg (settled frame listed)]
    rw [due, ArenaRun.current, if_neg (Nat.ne_of_lt gone)] at counts
    simpa using counts.symm
  · have once := sound.accepted pointer number
    omega
  · obtain ⟨_, _, eager, closed⟩ := sound.arenas pointer state found
    exact ⟨eager, closed⟩

end Runs

/-- One of two members is accepted when the arena is closed and the other is rejected. -/
theorem last_member_accepted : ∃ run : ArenaRun Nat, Reachable (arenaMachine Nat) run ∧
    run.number 7 = 1 ∧ run.timesAdded 7 0 1 = 1 ∧
    run.timesTold 7 0 1 = run.timesAdded 7 0 1 ∧ run.timesAccepted 7 0 ≤ 1 := by
  obtain ⟨run, ran, gone, settled, added⟩ : ∃ run, (arenaMachine Nat).run {}
      [.call (.add 7 (some 1)), .call (.add 7 (some 2)), .call (.close 7), .call (.reject 7 2),
        .tell, .callbackEnds none, .tell, .callbackEnds (some (.logicError "")), .resolved] =
          some run ∧ run.number 7 = 1 ∧ run.stack = [] ∧ run.timesAdded 7 0 1 = 1 :=
    ⟨_, rfl, rfl, rfl, rfl⟩
  have reached : Reachable (arenaMachine Nat) run := Reachable.run (.start rfl) ran
  obtain ⟨told, accepted, _⟩ := arena_verdicts reached
  refine ⟨run, reached, gone, added, told 7 0 1 (by rw [gone]; exact Nat.one_pos) ?_,
    accepted 7 0⟩
  rw [settled]
  exact nofun

/-- A member that is rejected and enters the same arena again is told a second verdict. -/
theorem second_verdict : ∃ run : ArenaRun Nat, Reachable (arenaMachine Nat) run ∧
    run.number 7 = 1 ∧ run.stack = [] ∧ run.timesTold 7 0 1 = 2 := by
  obtain ⟨run, ran, gone, settled, twice⟩ : ∃ run, (arenaMachine Nat).run {}
      [.call (.add 7 (some 1)), .call (.add 7 (some 2)), .call (.reject 7 1), .tell,
        .callbackEnds none, .resolved, .call (.add 7 (some 1)), .call (.cancel 7), .tell,
        .callbackEnds none, .tell, .callbackEnds none, .resolved] = some run ∧
      run.number 7 = 1 ∧ run.stack = [] ∧ run.timesTold 7 0 1 = 2 := ⟨_, rfl, rfl, rfl, rfl⟩
  exact ⟨run, Reachable.run (.start rfl) ran, gone, settled, twice⟩

/-! Claims. -/

section Claims
variable {μ : Type} [DecidableEq μ] {run next : ArenaRun μ} {call : ArenaCall μ}
variable {after : GestureArena μ} {resolution : Option (Resolution μ)}

/-- The call does not forget who claims an arena: an open one that is swept has no eager winner
but its first member, and an eager winner that is rejected has been the only one to accept. -/
def ArenaRun.Honours (run : ArenaRun μ) (action : ArenaAction μ) : Prop :=
  match action with
  | .call (.sweep pointer) => ∀ state winner, run.arena.arenas pointer = some state →
      pointer ∉ run.arena.resolving → state.closed = false → state.eagerWinner = some winner →
        state.members.head? = some winner
  | .call (.reject pointer member) => ∀ state, run.arena.arenas pointer = some state →
      pointer ∉ run.arena.resolving → state.eagerWinner = some member →
        run.claims pointer = [member]
  | _ => True

/-- The winner of an event is who claimed the arena first, if anybody did. -/
def ArenaEvent.Earned (event : ArenaEvent μ) : Prop :=
  ∀ pointer number winner claims, event = .won pointer number winner claims →
    ∀ first, claims.head? = some first → winner = first

/-- What holds of claims: the eager winner of an arena is who claimed it first, and every winner
so far has earned it. -/
structure ArenaRun.Claimed (run : ArenaRun μ) : Prop where
  first : ∀ pointer state, run.arena.arenas pointer = some state →
    (run.claims pointer).head? = state.eagerWinner
  earned : ∀ event ∈ run.log, event.Earned

theorem head_erase {claims : List μ} {member : μ} (other : claims.head? ≠ some member) :
    (claims.erase member).head? = claims.head? := by
  cases claims with
  | nil => rfl
  | cons first rest =>
    have different : first ≠ member := fun same => other (congrArg some same)
    rw [List.erase_cons_tail (by simpa using different)]
    rfl

/-- Who claims an arena that stays after a call is its eager winner. -/
theorem claims_after_first (sound : run.arena.Sound) (claimed : run.Claimed)
    (honours : run.Honours (.call call)) (effect : run.arena.Effect call after resolution)
    {state : ArenaState μ} (found : after.arenas call.pointer = some state) :
    (run.claimsAfter call after).head? = state.eagerWinner := by
  cases effect with
  | nothing idle =>
    have first := claimed.first call.pointer state found
    have eager := (sound call.pointer state found).eager
    unfold ArenaRun.claimsAfter
    rw [found]
    cases call with
    | accept pointer member =>
      dsimp only
      split
      case isFalse => exact first
      case isTrue entered =>
        obtain ⟨free, opened, listed, _⟩ := entered
        rcases idle.2 with suppressed | idle
        · exact absurd suppressed free
        · rcases idle state found with absent | ⟨_, taken⟩
          · exact absurd listed absent
          · rw [← first] at taken ⊢
            exact List.head?_append_of_ne_nil _ fun nobody => taken (congrArg List.head? nobody)
    | reject pointer member =>
      dsimp only
      split
      case isFalse => exact first
      case isTrue free =>
        rcases idle.2 with suppressed | idle
        · exact absurd suppressed free
        · refine (head_erase fun same => ?_).trans first
          exact idle state found (eager member (first.symm.trans same))
    | _ => exact first
  | @added pointer member before free there opened fresh =>
    have same := put_self run.arena pointer (some { before with
      members := before.members ++ [member] })
    cases same.symm.trans found
    unfold ArenaRun.claimsAfter
    cases held : run.arena.arenas pointer with
    | none =>
      rw [held] at there
      simp only [ArenaCall.pointer, held]
      rw [← there]
      rfl
    | some state =>
      rw [held] at there
      simp only [ArenaCall.pointer, held, same]
      rw [← there]
      exact claimed.first pointer _ held
  | @shut pointer before free there unclaimed several =>
    have same := put_self run.arena pointer (some { before with closed := true })
    cases same.symm.trans found
    dsimp only [ArenaRun.claimsAfter, ArenaCall.pointer]
    rw [there, same]
    exact claimed.first pointer _ there
  | @claimed pointer member before free there listed opened unclaimed =>
    have same := put_self run.arena pointer (some { before with eagerWinner := some member })
    cases same.symm.trans found
    have nobody : run.claims pointer = [] :=
      List.head?_eq_none_iff.mp ((claimed.first pointer _ there).trans unclaimed)
    dsimp only [ArenaRun.claimsAfter, ArenaCall.pointer]
    rw [there, same]
    dsimp only
    rw [if_pos ⟨free, opened, listed, by rw [nobody]; exact List.not_mem_nil⟩, nobody]
    rfl
  | won =>
    cases (put_self run.arena call.pointer none).symm.trans found
  | @promoted pointer =>
    cases (put_self run.arena pointer none).symm.trans found
  | dismissed =>
    cases (put_self run.arena call.pointer none).symm.trans found
  | @left pointer member before left free there listed same others enough =>
    have kept := put_self run.arena pointer (some left)
    cases kept.symm.trans found
    have first := claimed.first pointer _ there
    dsimp only [ArenaRun.claimsAfter, ArenaCall.pointer]
    rw [there, kept]
    dsimp only
    rw [if_pos free, same]
    dsimp only
    split
    case isTrue eager =>
      rw [honours before there free eager, List.erase_cons_head]
      rfl
    case isFalse other => exact (head_erase (first.trans_ne other)).trans first

/-- Who wins by a call claimed the arena first, if anybody did. -/
theorem won_earned (sound : run.arena.Sound) (claimed : run.Claimed)
    (honours : run.Honours (.call call)) (effect : run.arena.Effect call after resolution) :
    ∀ event ∈ run.wonBy call resolution, event.Earned := by
  intro event listed
  obtain ⟨⟨winner, verdict⟩, given, same⟩ := List.mem_filterMap.mp listed
  cases verdict with
  | reject => cases same
  | accept =>
    cases same
    rintro _ _ _ _ ⟨⟩ first claims
    cases effect with
    | nothing | added | shut | claimed => cases given
    | @won call chosen state free found listed chooses =>
      have same : winner = chosen := by
        rcases List.mem_cons.mp given with same | rejected
        · exact congrArg Prod.fst same
        · obtain ⟨_, _, same⟩ := List.mem_map.mp rejected
          cases same
      have eager : state.eagerWinner = some first := by
        rw [← claimed.first call.pointer state found]
        cases call with
        | reject => exact chooses.elim
        | _ => exact claims
      subst same
      cases call with
      | add | reject | cancel => exact chooses.elim
      | close pointer =>
        rcases chooses with taken | ⟨unclaimed, _⟩
        · exact Option.some.inj (taken.symm.trans eager)
        · cases unclaimed.symm.trans eager
      | accept pointer member =>
        cases ((sound pointer state found).closed chooses.2).2.symm.trans eager
      | sweep pointer =>
        cases opened : state.closed with
        | true => cases ((sound pointer state found).closed opened).2.symm.trans eager
        | false =>
          have leads := honours state first found free opened eager
          exact Option.some.inj ((show state.members.head? = some winner from chooses).symm.trans leads)
    | left => cases List.mem_singleton.mp given
    | @promoted pointer member other state free found listed only closed =>
      have nobody : run.claims pointer = [] := List.head?_eq_none_iff.mp
        ((claimed.first pointer state found).trans ((sound pointer state found).closed closed).2)
      rw [ArenaRun.claimsOf, nobody] at claims
      cases claims
    | @dismissed call state =>
      obtain ⟨_, _, same⟩ := List.mem_map.mp given
      cases same

theorem begin_claimed (sound : run.arena.Sound) (claimed : run.Claimed)
    (honours : run.Honours (.call call)) (effect : run.arena.Effect call after resolution) :
    (run.begin call after resolution).Claimed := by
  refine ⟨fun pointer state found => ?_, fun event listed => ?_⟩
  · have kept : after.arenas pointer = some state := by
      cases resolution <;> exact found
    change (Function.update run.claims call.pointer (run.claimsAfter call after) pointer).head? = _
    by_cases own : pointer = call.pointer
    · subst own
      rw [Function.update_self]
      exact claims_after_first sound claimed honours effect kept
    · rw [Function.update_of_ne own]
      rw [effect_others effect own] at kept
      exact claimed.first pointer state kept
  · change event ∈ run.log ++ run.addedBy call ++ run.wonBy call resolution at listed
    rcases List.mem_append.mp listed with listed | listed
    · rcases List.mem_append.mp listed with listed | listed
      · exact claimed.earned event listed
      · obtain ⟨_, rfl⟩ := added_by_events listed
        exact nofun
    · exact won_earned sound claimed honours effect event listed

theorem claims_step {action : ArenaAction μ} (sound : run.Sound) (claimed : run.Claimed)
    (honours : run.Honours action) (stepped : run.step action = some next) : next.Claimed := by
  cases action with
  | call call =>
    rw [ArenaRun.step] at stepped
    split at stepped
    case isFalse => cases stepped
    case isTrue =>
      split at stepped
      case h_1 =>
        cases stepped
        exact ⟨claimed.first, claimed.earned⟩
      case h_2 after resolution performed =>
        cases stepped
        exact begin_claimed sound.arenas claimed honours (perform_effect sound.arenas performed)
  | tell =>
    rw [ArenaRun.step] at stepped
    split at stepped
    case h_2 => cases stepped
    case h_1 =>
      cases stepped
      refine ⟨claimed.first, fun event listed => ?_⟩
      rcases List.mem_append.mp listed with listed | listed
      · exact claimed.earned event listed
      · rw [List.mem_singleton.mp listed]
        exact nofun
  | callbackEnds failure =>
    rw [ArenaRun.step] at stepped
    split at stepped <;> cases stepped
    exact ⟨claimed.first, claimed.earned⟩
  | resolved =>
    rw [ArenaRun.step] at stepped
    split at stepped <;> cases stepped
    exact ⟨claimed.first, claimed.earned⟩

/-- Where no claim is forgotten, whoever accepts first while an arena is open wins it if anybody
does. -/
theorem eager_claim_wins
    (reached : Reaches (arenaMachine μ) (fun run action => run.Honours action) run) :
    ∀ pointer number winner claims, .won pointer number winner claims ∈ run.log →
      ∀ first, claims.head? = some first → winner = first := by
  have both : run.Sound ∧ run.Claimed := by
    refine reached.invariant (fun run => run.Sound ∧ run.Claimed) ?_ ?_
    · rintro run initial
      refine ⟨arena_runs_sound (.start initial), ?_⟩
      cases initial
      exact ⟨nofun, nofun⟩
    · rintro run action next ⟨sound, claimed⟩ honours stepped
      exact ⟨arena_step_sound sound stepped, claims_step sound claimed honours stepped⟩
  intro pointer number winner claims listed
  exact both.2.earned _ listed pointer number winner claims rfl

end Claims

/-- The second member claims the open arena, and wins it when it is closed. -/
theorem claim_wins_at_close : ∃ run : ArenaRun Nat,
    Reaches (arenaMachine Nat) (fun run action => run.Honours action) run ∧
      .won 7 0 2 [2] ∈ run.log ∧ ∀ first, [2].head? = some first → 2 = first := by
  obtain ⟨run, reached, won⟩ : ∃ run,
      Reaches (arenaMachine Nat) (fun run action => run.Honours action) run ∧
        .won 7 0 2 [2] ∈ run.log := by
    have step : ∀ {run next : ArenaRun Nat} (action : ArenaAction Nat), run.Honours action →
        run.step action = some next →
        Reaches (arenaMachine Nat) (fun run action => run.Honours action) run →
        Reaches (arenaMachine Nat) (fun run action => run.Honours action) next :=
      fun action honours stepped reached => .step reached honours stepped
    exact ⟨_, step (.call (.close 7)) trivial rfl (step (.call (.accept 7 2)) trivial rfl
      (step (.call (.add 7 (some 2))) trivial rfl (step (.call (.add 7 (some 1))) trivial rfl
        (.start rfl)))), by decide⟩
  exact ⟨run, reached, won, eager_claim_wins reached 7 0 2 [2] won⟩

/-- A sweep of the open arena lets the first member win, although the second has claimed it. -/
theorem sweep_forgets_claim : ∃ run : ArenaRun Nat, Reachable (arenaMachine Nat) run ∧
    .won 7 0 1 [2] ∈ run.log := by
  obtain ⟨run, ran, won⟩ : ∃ run, (arenaMachine Nat).run {}
      [.call (.add 7 (some 1)), .call (.add 7 (some 2)), .call (.accept 7 2),
        .call (.sweep 7)] = some run ∧
      ArenaEvent.won 7 0 1 [2] ∈ run.log := ⟨_, rfl, by decide⟩
  exact ⟨run, Reachable.run (.start rfl) ran, won⟩

end Dui
