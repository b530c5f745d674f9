import Mathlib.Algebra.Order.Field.Rat
import Mathlib.Tactic.Linarith
import Dui.Transition

/-!
# Animation controllers

An `AnimationController` keeps its value, its elapsed time, its status and the
activity of its ticker apart, and every operation writes some of them. Times and
values are exact rationals. The callback is the last thing an operation calls, so
what it asks of the controller is one more step of the run.

`step_agrees_iff` names the operations that leave the four views of one
animation in disagreement: those that settle the status while the ticker runs, and
a value set strictly inside the range while the status is settled.
-/

namespace Dui

open Transition

inductive AnimationStatus where
  | dismissed
  | forward
  | reverse
  | completed
  deriving DecidableEq, Repr

/-- The status of an animation that has come to an end. -/
def AnimationStatus.Settled (status : AnimationStatus) : Prop :=
  status = .completed ∨ status = .dismissed

instance (status : AnimationStatus) : Decidable status.Settled :=
  inferInstanceAs (Decidable (_ ∨ _))

/-- `Ticker`, whose callback is the controller's `onTick` for as long as the
controller lives. -/
structure Ticker where
  active : Bool := false
  deriving DecidableEq, Repr

def Ticker.start (ticker : Ticker) : Ticker := { ticker with active := true }

def Ticker.stop (ticker : Ticker) : Ticker := { ticker with active := false }

@[simp] theorem Ticker.start_active (ticker : Ticker) : ticker.start.active = true := rfl

@[simp] theorem Ticker.stop_active (ticker : Ticker) : ticker.stop.active = false := rfl

/-- A controller; `published` holds the values handed to the callback so far. -/
structure AnimationController where
  duration : ℚ
  positive : 0 < duration
  elapsed : ℚ := 0
  callback : Bool
  ticker : Ticker := {}
  value : ℚ := 0
  status : AnimationStatus := .dismissed
  published : List ℚ := []

namespace AnimationController

/-- `std::clamp`. -/
def clamp (value low high : ℚ) : ℚ :=
  if value < low then low else if high < value then high else value

theorem clamp_range {value low high : ℚ} (ordered : low ≤ high) :
    low ≤ clamp value low high ∧ clamp value low high ≤ high := by
  unfold clamp
  split_ifs with below above
  · exact ⟨le_rfl, ordered⟩
  · exact ⟨ordered, le_rfl⟩
  · exact ⟨not_lt.mp below, not_lt.mp above⟩

def create (duration : ℚ) (callback : Bool) : Except String AnimationController :=
  if rejected : duration ≤ 0 then
    .error "Animation duration must be finite and positive"
  else
    .ok { duration, positive := not_le.mp rejected, callback }

def publish (animation : AnimationController) : AnimationController :=
  if animation.callback then
    { animation with published := animation.published ++ [animation.value] }
  else animation

def forward (animation : AnimationController) : AnimationController :=
  if animation.value ≥ 1 then
    { animation with value := 1, status := .completed }
  else
    { animation with
      elapsed := animation.duration * animation.value
      status := .forward
      ticker := animation.ticker.start }

def reverse (animation : AnimationController) : AnimationController :=
  if animation.value ≤ 0 then
    { animation with value := 0, status := .dismissed }
  else
    { animation with
      elapsed := animation.duration * animation.value
      status := .reverse
      ticker := animation.ticker.start }

def stop (animation : AnimationController) : AnimationController :=
  { animation with ticker := animation.ticker.stop }

def setValue (animation : AnimationController) (value : ℚ) : Except String AnimationController :=
  if value < 0 ∨ value > 1 then
    .error "Animation value must be in the range [0, 1]"
  else
    .ok (publish { animation with
      value
      elapsed := animation.duration * value
      status :=
        if value ≤ 0 then .dismissed
        else if value ≥ 1 then .completed
        else animation.status })

/-- The end of `on_tick`, with the time already moved on. -/
def settle (animation : AnimationController) : AnimationController :=
  let value := clamp (animation.elapsed / animation.duration) 0 1
  publish (
    if value ≥ 1 then
      { animation with value, status := .completed, ticker := animation.ticker.stop }
    else if value ≤ 0 then
      { animation with value, status := .dismissed, ticker := animation.ticker.stop }
    else { animation with value })

def onTick (animation : AnimationController) (elapsed : ℚ) : AnimationController :=
  match animation.status with
  | .forward => settle { animation with elapsed := animation.elapsed + elapsed }
  | .reverse => settle { animation with elapsed := animation.elapsed - elapsed }
  | .dismissed | .completed => animation

/-- What `TickerScheduler::elapse` does to the controller of one of its tickers. -/
def elapse (animation : AnimationController) (elapsed : ℚ) : Except String AnimationController :=
  if elapsed < 0 then
    .error "Ticker elapsed duration must be finite and non-negative"
  else if animation.ticker.active then
    .ok (animation.onTick elapsed)
  else .ok animation

@[simp] theorem publish_value (animation : AnimationController) :
    animation.publish.value = animation.value := by
  unfold publish
  split <;> rfl

@[simp] theorem publish_status (animation : AnimationController) :
    animation.publish.status = animation.status := by
  unfold publish
  split <;> rfl

@[simp] theorem publish_ticker (animation : AnimationController) :
    animation.publish.ticker = animation.ticker := by
  unfold publish
  split <;> rfl

end AnimationController

inductive AnimationAction where
  | forward
  | reverse
  | stop
  | setValue (value : ℚ)
  | setCallback (callback : Bool)
  | elapse (elapsed : ℚ)
  deriving DecidableEq, Repr

/-- One operation; one that throws leaves the controller as it was. -/
def AnimationController.apply (animation : AnimationController) :
    AnimationAction → Except String AnimationController
  | .forward => .ok animation.forward
  | .reverse => .ok animation.reverse
  | .stop => .ok animation.stop
  | .setValue value => animation.setValue value
  | .setCallback callback => .ok { animation with callback }
  | .elapse elapsed => animation.elapse elapsed

def AnimationController.after (animation : AnimationController) (action : AnimationAction) :
    AnimationController :=
  match animation.apply action with
  | .ok next => next
  | .error _ => animation

/-- The runs of one controller from its construction on. -/
def animationMachine : Machine AnimationController AnimationAction where
  init animation := ∃ duration callback,
    AnimationController.create duration callback = .ok animation
  step animation action := some (animation.after action)

/-- Value, status and ticker tell of one animation. -/
structure AnimationController.Agrees (animation : AnimationController) : Prop where
  low : 0 ≤ animation.value
  high : animation.value ≤ 1
  completed : animation.status = .completed → animation.value = 1
  dismissed : animation.status = .dismissed → animation.value = 0
  inactive : animation.status.Settled → animation.ticker.active = false

/-- The operations that keep the views in agreement: no operation settles the
status under a running ticker, and no value inside the range meets a settled status. -/
def AnimationController.Undisturbed (animation : AnimationController) : AnimationAction → Prop
  | .forward => 1 ≤ animation.value → animation.ticker.active = false
  | .reverse => animation.value ≤ 0 → animation.ticker.active = false
  | .setValue value =>
    (value = 0 ∨ value = 1 → animation.ticker.active = false) ∧
      (0 < value ∧ value < 1 → ¬ animation.status.Settled)
  | .stop | .setCallback _ | .elapse _ => True

instance (animation : AnimationController) :
    (action : AnimationAction) → Decidable (animation.Undisturbed action)
  | .forward | .reverse => inferInstanceAs (Decidable (_ → _))
  | .setValue _ => inferInstanceAs (Decidable (_ ∧ _))
  | .stop | .setCallback _ | .elapse _ => isTrue trivial

namespace AnimationController

variable {animation : AnimationController}

theorem create_agrees {duration : ℚ} {callback : Bool}
    (created : create duration callback = .ok animation) : animation.Agrees := by
  unfold create at created
  split at created
  case isTrue => cases created
  case isFalse =>
    cases created
    exact ⟨le_rfl, zero_le_one, nofun, fun _ => rfl, fun _ => rfl⟩

theorem forward_agrees_iff (agrees : animation.Agrees) :
    animation.forward.Agrees ↔ animation.Undisturbed .forward := by
  unfold forward
  by_cases whole : animation.value ≥ 1
  · rw [if_pos whole]
    constructor
    · intro after _
      exact after.inactive (.inl rfl)
    · intro quiet
      exact ⟨zero_le_one, le_rfl, fun _ => rfl, nofun, fun _ => quiet whole⟩
  · rw [if_neg whole]
    constructor
    · intro _ reached
      exact absurd reached whole
    · intro _
      exact ⟨agrees.low, agrees.high, nofun, nofun, nofun⟩

theorem reverse_agrees_iff (agrees : animation.Agrees) :
    animation.reverse.Agrees ↔ animation.Undisturbed .reverse := by
  unfold reverse
  by_cases gone : animation.value ≤ 0
  · rw [if_pos gone]
    constructor
    · intro after _
      exact after.inactive (.inr rfl)
    · intro quiet
      exact ⟨le_rfl, zero_le_one, nofun, fun _ => rfl, fun _ => quiet gone⟩
  · rw [if_neg gone]
    constructor
    · intro _ reached
      exact absurd reached gone
    · intro _
      exact ⟨agrees.low, agrees.high, nofun, nofun, nofun⟩

theorem stop_agrees (agrees : animation.Agrees) : animation.stop.Agrees :=
  { agrees with inactive := fun _ => rfl }

/-- Publishing is not seen by the three views. -/
@[simp] theorem publish_agrees_iff : animation.publish.Agrees ↔ animation.Agrees := by
  constructor
  · rintro ⟨low, high, completed, dismissed, inactive⟩
    rw [publish_value] at low high completed dismissed
    rw [publish_status] at completed dismissed inactive
    rw [publish_ticker] at inactive
    exact ⟨low, high, completed, dismissed, inactive⟩
  · rintro ⟨low, high, completed, dismissed, inactive⟩
    constructor
    · rwa [publish_value]
    · rwa [publish_value]
    · rwa [publish_status, publish_value]
    · rwa [publish_status, publish_value]
    · rwa [publish_status, publish_ticker]

theorem setValue_agrees_iff {value : ℚ} {next : AnimationController}
    (returned : animation.setValue value = .ok next) :
    next.Agrees ↔ animation.Undisturbed (.setValue value) := by
  unfold setValue at returned
  split at returned
  case isTrue => cases returned
  case isFalse accepted =>
  cases returned
  obtain ⟨low, high⟩ := not_or.mp accepted
  have low := not_lt.mp low
  have high := not_lt.mp high
  rw [publish_agrees_iff]
  by_cases zero : value ≤ 0
  · obtain rfl : value = 0 := le_antisymm zero low
    rw [if_pos zero]
    constructor
    · intro after
      exact ⟨fun _ => after.inactive (.inr rfl), fun inside => absurd inside.1 (lt_irrefl 0)⟩
    · intro met
      exact ⟨low, high, nofun, fun _ => rfl, fun _ => met.1 (.inl rfl)⟩
  · by_cases one : value ≥ 1
    · obtain rfl : value = 1 := le_antisymm high one
      rw [if_neg zero, if_pos one]
      constructor
      · intro after
        exact ⟨fun _ => after.inactive (.inl rfl), fun inside => absurd inside.2 (lt_irrefl 1)⟩
      · intro met
        exact ⟨low, high, fun _ => rfl, nofun, fun _ => met.1 (.inr rfl)⟩
    · -- the status is left as it was, so it must be one that any value suits
      rw [if_neg zero, if_neg one]
      have above : 0 < value := not_le.mp zero
      have below : value < 1 := not_le.mp one
      constructor
      · intro after
        constructor
        · rintro (rfl | rfl)
          · exact absurd above (lt_irrefl 0)
          · exact absurd below (lt_irrefl 1)
        · rintro - (completed | dismissed)
          · exact below.ne (after.completed completed)
          · exact above.ne' (after.dismissed dismissed)
      · intro met
        have unsettled := met.2 ⟨above, below⟩
        exact ⟨low, high, fun completed => absurd (.inl completed) unsettled,
          fun dismissed => absurd (.inr dismissed) unsettled,
          fun settled => absurd settled unsettled⟩

theorem settle_agrees (unsettled : ¬ animation.status.Settled) : animation.settle.Agrees := by
  have range (value : ℚ) : 0 ≤ clamp value 0 1 ∧ clamp value 0 1 ≤ 1 := clamp_range zero_le_one
  obtain ⟨low, high⟩ := range (animation.elapsed / animation.duration)
  unfold settle
  simp only [publish_agrees_iff]
  split_ifs with one zero
  · exact ⟨low, high, fun _ => le_antisymm high one, nofun, fun _ => rfl⟩
  · exact ⟨low, high, nofun, fun _ => le_antisymm zero low, fun _ => rfl⟩
  · exact ⟨low, high, fun completed => absurd (.inl completed) unsettled,
      fun dismissed => absurd (.inr dismissed) unsettled,
      fun settled => absurd settled unsettled⟩

theorem onTick_agrees (elapsed : ℚ) (agrees : animation.Agrees) :
    (animation.onTick elapsed).Agrees := by
  unfold onTick
  split
  case h_1 forward => exact settle_agrees (by rintro (same | same) <;> simp [forward] at same)
  case h_2 reverse => exact settle_agrees (by rintro (same | same) <;> simp [reverse] at same)
  case h_3 => exact agrees
  case h_4 => exact agrees

theorem elapse_agrees {elapsed : ℚ} {next : AnimationController} (agrees : animation.Agrees)
    (returned : animation.elapse elapsed = .ok next) : next.Agrees := by
  unfold elapse at returned
  split_ifs at returned
  · cases returned
    exact onTick_agrees elapsed agrees
  · cases returned
    exact agrees

/-- From agreement, an operation that returns keeps it exactly when it is
undisturbed. -/
theorem apply_agrees_iff {action : AnimationAction} {next : AnimationController}
    (agrees : animation.Agrees) (returned : animation.apply action = .ok next) :
    next.Agrees ↔ animation.Undisturbed action := by
  cases action with
  | forward =>
    cases returned
    exact forward_agrees_iff agrees
  | reverse =>
    cases returned
    exact reverse_agrees_iff agrees
  | stop =>
    cases returned
    exact iff_of_true (stop_agrees agrees) trivial
  | setValue value => exact setValue_agrees_iff returned
  | setCallback callback =>
    cases returned
    exact iff_of_true { agrees with } trivial
  | elapse elapsed => exact iff_of_true (elapse_agrees agrees returned) trivial

theorem after_agrees {action : AnimationAction} (agrees : animation.Agrees)
    (met : animation.Undisturbed action) : (animation.after action).Agrees := by
  unfold after
  split
  case h_1 next returned => exact (apply_agrees_iff agrees returned).mpr met
  case h_2 => exact agrees

theorem settle_range : 0 ≤ animation.settle.value ∧ animation.settle.value ≤ 1 := by
  unfold settle
  simp only [publish_value]
  split_ifs <;> exact clamp_range zero_le_one

theorem apply_range {action : AnimationAction} {next : AnimationController}
    (range : 0 ≤ animation.value ∧ animation.value ≤ 1)
    (returned : animation.apply action = .ok next) : 0 ≤ next.value ∧ next.value ≤ 1 := by
  cases action with
  | forward =>
    cases returned
    unfold forward
    split
    · exact ⟨zero_le_one, le_rfl⟩
    · exact range
  | reverse =>
    cases returned
    unfold reverse
    split
    · exact ⟨le_rfl, zero_le_one⟩
    · exact range
  | stop =>
    cases returned
    exact range
  | setValue value =>
    have returned : animation.setValue value = .ok next := returned
    unfold setValue at returned
    split at returned
    case isTrue => cases returned
    case isFalse accepted =>
      cases returned
      rw [publish_value]
      exact ⟨not_lt.mp fun low => accepted (.inl low), not_lt.mp fun high => accepted (.inr high)⟩
  | setCallback callback =>
    cases returned
    exact range
  | elapse elapsed =>
    have returned : animation.elapse elapsed = .ok next := returned
    unfold elapse at returned
    split_ifs at returned
    · cases returned
      unfold onTick
      split
      case h_1 => exact settle_range
      case h_2 => exact settle_range
      case h_3 => exact range
      case h_4 => exact range
    · cases returned
      exact range

end AnimationController

/-- In every run of undisturbed operations the views agree, and the first
disturbing one breaks the agreement. -/
theorem animation_agreement {animation : AnimationController}
    (reached : Reaches animationMachine AnimationController.Undisturbed animation) :
    animation.Agrees ∧ ∀ action next, animation.apply action = .ok next →
      (next.Agrees ↔ animation.Undisturbed action) := by
  have agrees : animation.Agrees := by
    induction reached with
    | start initial =>
      obtain ⟨duration, callback, created⟩ := initial
      exact AnimationController.create_agrees created
    | step _ met stepped ih =>
      cases stepped
      exact AnimationController.after_agrees ih met
  exact ⟨agrees, fun action next returned =>
    AnimationController.apply_agrees_iff agrees returned⟩

/-- A controller of duration `duration` that was just created. -/
def AnimationController.fresh (duration : ℚ) (positive : 0 < duration) : AnimationController :=
  { duration, positive, callback := false }

theorem AnimationController.fresh_reaches (duration : ℚ) (positive : 0 < duration)
    (guard : AnimationController → AnimationAction → Prop) :
    Reaches animationMachine guard (fresh duration positive) := by
  apply Reaches.start
  exact ⟨duration, false, by rw [create, dif_neg (not_le.mpr positive)]; rfl⟩

/-- An animation played to its end, then back to the middle and stopped there. -/
theorem animation_agreement_played : ∃ animation : AnimationController,
    animation.value = 1 / 2 ∧ animation.ticker.active = false ∧ animation.Agrees := by
  have first := AnimationController.fresh_reaches 1 one_pos AnimationController.Undisturbed
  have ran : (animationMachine.runGuarded AnimationController.Undisturbed
      (AnimationController.fresh 1 one_pos)
      [.forward, .elapse 2, .reverse, .elapse (1 / 2), .stop, .setValue (1 / 2)]).map
        (fun animation => (animation.value, animation.ticker.active)) = some (1 / 2, false) := by
    decide +kernel
  obtain ⟨last, ran, ended⟩ := Option.map_eq_some_iff.mp ran
  obtain ⟨value, active⟩ := Prod.mk.inj ended
  exact ⟨last, value, active, (animation_agreement (first.run_guarded ran)).1⟩

/-- A value set at the end of the range completes the animation and leaves its
ticker running. -/
theorem completed_while_ticking :
    ¬ ∀ animation, Reachable animationMachine animation → animation.Agrees := by
  intro all
  have first := AnimationController.fresh_reaches 1 one_pos fun _ _ => True
  have ran : (animationMachine.run (AnimationController.fresh 1 one_pos)
      [.forward, .setValue 1]).map
        (fun animation => (animation.status, animation.ticker.active)) =
      some (.completed, true) := by
    decide +kernel
  obtain ⟨last, ran, ended⟩ := Option.map_eq_some_iff.mp ran
  obtain ⟨completed, active⟩ := Prod.mk.inj ended
  have inactive := (all last (Reachable.run first ran)).inactive (.inl completed)
  exact absurd (active.symm.trans inactive) (by decide)

/-- The value itself never leaves the range, in any run. -/
theorem animation_value_range {animation : AnimationController}
    (reached : Reachable animationMachine animation) :
    0 ≤ animation.value ∧ animation.value ≤ 1 := by
  induction reached with
  | start initial =>
    obtain ⟨duration, callback, created⟩ := initial
    have agrees := AnimationController.create_agrees created
    exact ⟨agrees.low, agrees.high⟩
  | step _ _ stepped ih =>
    cases stepped
    unfold AnimationController.after
    split
    case h_1 next returned => exact AnimationController.apply_range ih returned
    case h_2 => exact ih

end Dui
