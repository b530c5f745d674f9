import Mathlib.Init

/-! Machines with partial steps, the states their runs reach, and the rule that
carries an invariant from the first state to all of them. A guard selects the
runs whose every step meets it. -/
namespace Transition

/-- How a machine starts and what an action does to a state; `none` where the
action is not enabled. -/
structure Machine (σ : Type*) (α : Type*) where
  init : σ → Prop
  step : σ → α → Option σ

variable {σ : Type*} {α : Type*} (machine : Machine σ α) (guard : σ → α → Prop)

/-- The states reached by runs whose every step meets the guard. -/
inductive Reaches : σ → Prop where
  | start {state : σ} (initial : machine.init state) : Reaches state
  | step {state next : σ} {action : α} (reached : Reaches state) (met : guard state action)
      (stepped : machine.step state action = some next) : Reaches next

/-- The states reached by any run. -/
abbrev Reachable : σ → Prop := Reaches machine fun _ _ => True

/-- Runs a list of actions, stopping where one is not enabled. -/
def Machine.run : σ → List α → Option σ
  | state, [] => some state
  | state, action :: rest => (machine.step state action).bind fun next => Machine.run next rest

/-- Runs a list of actions as long as each meets the guard. -/
def Machine.runGuarded [∀ state action, Decidable (guard state action)] : σ → List α → Option σ
  | state, [] => some state
  | state, action :: rest =>
    if guard state action then
      (machine.step state action).bind fun next => Machine.runGuarded next rest
    else none

/-- The machine with its runs taken up in a given state. -/
def Machine.startedIn (first : σ) : Machine σ α := { machine with init := (· = first) }

variable {machine guard}

/-- What holds at the start and is kept by every guarded step holds throughout. -/
theorem Reaches.invariant (good : σ → Prop) (start : ∀ state, machine.init state → good state)
    (kept : ∀ state action next, good state → guard state action →
      machine.step state action = some next → good next)
    {state : σ} (reached : Reaches machine guard state) : good state := by
  induction reached with
  | start initial => exact start _ initial
  | step _ met stepped ih => exact kept _ _ _ ih met stepped

/-- A run may be seen under a weaker guard. -/
theorem Reaches.mono {other : σ → α → Prop} {state : σ}
    (reached : Reaches machine guard state)
    (weaker : ∀ state action, guard state action → other state action) :
    Reaches machine other state := by
  induction reached with
  | start initial => exact .start initial
  | step _ met stepped ih => exact ih.step (weaker _ _ met) stepped

theorem Reaches.run_guarded [∀ state action, Decidable (guard state action)] {state last : σ}
    {actions : List α} (reached : Reaches machine guard state)
    (ran : machine.runGuarded guard state actions = some last) : Reaches machine guard last := by
  induction actions generalizing state with
  | nil =>
    cases ran
    exact reached
  | cons action rest ih =>
    rw [Machine.runGuarded] at ran
    split at ran
    case isFalse => cases ran
    case isTrue met =>
      obtain ⟨next, stepped, ran⟩ := Option.bind_eq_some_iff.mp ran
      exact ih (reached.step met stepped) ran

theorem Reachable.run {state last : σ} {actions : List α} (reached : Reachable machine state)
    (ran : machine.run state actions = some last) : Reachable machine last := by
  induction actions generalizing state with
  | nil =>
    cases ran
    exact reached
  | cons action rest ih =>
    obtain ⟨next, stepped, ran⟩ := Option.bind_eq_some_iff.mp ran
    exact ih (Reaches.step reached trivial stepped) ran

end Transition
