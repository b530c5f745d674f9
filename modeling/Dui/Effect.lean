import Mathlib.Init

/-! Computations over a state that may throw and may not come to an end, with rules
for what holds before and after them. Not returning is `none`, so a triple speaks of
the computations that return or throw. -/
namespace Effect

/-- A computation: how it ends, if it does, and the state it leaves. -/
def Run (σ ε α : Type) := σ → Option (Except ε α × σ)

variable {σ ε α β : Type}

namespace Run

def pure (value : α) : Run σ ε α := fun state => some (.ok value, state)

/-- Goes on with the value, unless something was thrown. -/
def bind (run : Run σ ε α) (next : α → Run σ ε β) : Run σ ε β := fun state =>
  match run state with
  | none => none
  | some (.ok value, state) => next value state
  | some (.error failure, state) => some (.error failure, state)

instance : Monad (Run σ ε) where
  pure := pure
  bind := bind

def throw (failure : ε) : Run σ ε α := fun state => some (.error failure, state)

/-- Reads the state. -/
def read (view : σ → α) : Run σ ε α := fun state => some (.ok (view state), state)

/-- Changes the state. -/
def change (f : σ → σ) : Run σ ε Unit := fun state => some (.ok (), f state)

/-- Never comes to an end. -/
def diverge : Run σ ε α := fun _ => none

/-- Catches whatever is thrown. -/
def attempt (run : Run σ ε α) : Run σ ε (Except ε α) := fun state =>
  (run state).map fun (outcome, state) => (.ok outcome, state)

/-- Throws what was caught. -/
def resume : Except ε α → Run σ ε α
  | .ok value => pure value
  | .error failure => throw failure

/-- Runs a list of computations one after the other. -/
def each {ι : Type} (body : ι → Run σ ε Unit) : List ι → Run σ ε Unit
  | [] => pure ()
  | first :: rest => bind (body first) fun _ => each body rest

/-- Runs a list of computations one after the other and says whether one of them said so. -/
def anyOf {ι : Type} (body : ι → Run σ ε Bool) : List ι → Run σ ε Bool
  | [] => pure false
  | first :: rest => bind (body first) fun found => bind (anyOf body rest) fun others =>
    pure (found || others)

/-- What is left of a list whose run is cut short by a throw, and the state it leaves. -/
def cut {ι : Type} (body : ι → Run σ ε Unit) : List ι → σ → Option (List ι × σ)
  | [], _ => none
  | first :: rest, state =>
    match body first state with
    | none => none
    | some (.ok _, state) => cut body rest state
    | some (.error _, state) => some (rest, state)

/-- How a computation and the rest of it end. -/
theorem bind_ends_iff {run : Run σ ε α} {rest : α → Run σ ε β} {state last : σ}
    {outcome : Except ε β} : (run >>= rest) state = some (outcome, last) ↔
      (∃ value middle, run state = some (.ok value, middle) ∧
        rest value middle = some (outcome, last)) ∨
      ∃ failure, run state = some (.error failure, last) ∧ outcome = .error failure := by
  change bind run rest state = _ ↔ _
  unfold bind
  cases ran : run state with
  | none => simp
  | some result =>
    obtain ⟨caught, middle⟩ := result
    cases caught with
    | ok value =>
      simp only [Option.some.injEq, Prod.mk.injEq, Except.ok.injEq, reduceCtorEq, false_and,
        exists_false, or_false]
      constructor
      · exact fun ended => ⟨value, middle, ⟨rfl, rfl⟩, ended⟩
      · rintro ⟨_, _, ⟨rfl, rfl⟩, ended⟩
        exact ended
    | error failure =>
      simp only [Option.some.injEq, Prod.mk.injEq, reduceCtorEq, false_and, exists_false,
        Except.error.injEq, false_or]
      constructor
      · rintro ⟨rfl, rfl⟩
        exact ⟨failure, ⟨rfl, rfl⟩, rfl⟩
      · rintro ⟨_, ⟨rfl, rfl⟩, rfl⟩
        exact ⟨rfl, rfl⟩

/-- How a computation ends after reading the state. -/
theorem read_ends_iff {view : σ → α} {rest : α → Run σ ε β} {state last : σ}
    {outcome : Except ε β} : (read view >>= rest) state = some (outcome, last) ↔
      rest (view state) state = some (outcome, last) := Iff.rfl

/-- How a computation ends after changing the state. -/
theorem change_ends_iff {f : σ → σ} {rest : Unit → Run σ ε β} {state last : σ}
    {outcome : Except ε β} : (change f >>= rest) state = some (outcome, last) ↔
      rest () (f state) = some (outcome, last) := Iff.rfl

/-- How a computation ends after catching what another throws. -/
theorem attempt_ends_iff {run : Run σ ε α} {rest : Except ε α → Run σ ε β} {state last : σ}
    {outcome : Except ε β} : (attempt run >>= rest) state = some (outcome, last) ↔
      ∃ caught middle, run state = some (caught, middle) ∧
        rest caught middle = some (outcome, last) := by
  rw [bind_ends_iff]
  unfold attempt
  cases run state with
  | none => simp
  | some result =>
    obtain ⟨caught, middle⟩ := result
    constructor
    · rintro (⟨_, _, same, ended⟩ | ⟨_, same, _⟩)
      · cases same
        exact ⟨caught, middle, rfl, ended⟩
      · cases same
    · rintro ⟨_, _, same, ended⟩
      cases same
      exact .inl ⟨caught, middle, rfl, ended⟩

end Run

open Run

/-- What holds after a computation that was started where `pre` holds. -/
def Triple (pre : σ → Prop) (run : Run σ ε α) (post : Except ε α → σ → Prop) : Prop :=
  ∀ state outcome next, pre state → run state = some (outcome, next) → post outcome next

/-- This holds of what the computation returns, if it comes to an end and does not throw. -/
def Yields (pre : σ → Prop) (run : Run σ ε α) (post : α → σ → Prop) : Prop :=
  ∀ state value next, pre state → run state = some (.ok value, next) → post value next

/-- The computation keeps the invariant, whether it returns or throws. -/
def Keeps (invariant : σ → Prop) (run : Run σ ε α) : Prop :=
  Triple invariant run fun _ => invariant

/-- The computation keeps the invariant if it returns, and if it throws in case that is
asked for. -/
def KeepsIf (thrown : Prop) (invariant : σ → Prop) (run : Run σ ε α) : Prop :=
  Triple invariant run fun outcome state => (∃ value, outcome = .ok value) ∨ thrown →
    invariant state

/-- Wherever the first computation comes to an end, the second ends the same way. -/
def Refines (first second : Run σ ε α) : Prop :=
  ∀ state result, first state = some result → second state = some result

namespace Triple
variable {pre : σ → Prop} {run : Run σ ε α} {post : Except ε α → σ → Prop}

theorem weaken {strong : σ → Prop} {weak : Except ε α → σ → Prop} (triple : Triple pre run post)
    (before : ∀ state, strong state → pre state)
    (after : ∀ outcome state, post outcome state → weak outcome state) : Triple strong run weak :=
  fun state outcome next held ran => after _ _ (triple state outcome next (before _ held) ran)

theorem bind {next : α → Run σ ε β} {after : Except ε β → σ → Prop} (first : Triple pre run post)
    (rest : ∀ value, Triple (post (.ok value)) (next value) after)
    (thrown : ∀ failure state, post (.error failure) state → after (.error failure) state) :
    Triple pre (run >>= next) after := by
  intro state outcome last held ran
  change Run.bind run next state = _ at ran
  unfold Run.bind at ran
  split at ran
  · cases ran
  · exact rest _ _ _ _ (first _ _ _ held ‹_›) ran
  · cases ran
    exact thrown _ _ (first _ _ _ held ‹_›)

theorem returning {value : α} (holds : ∀ state, pre state → post (.ok value) state) :
    Triple pre (Pure.pure value : Run σ ε α) post := by
  intro state outcome next held ran
  cases ran
  exact holds _ held

theorem throwing {failure : ε} (holds : ∀ state, pre state → post (.error failure) state) :
    Triple pre (throw failure : Run σ ε α) post := by
  intro state outcome next held ran
  cases ran
  exact holds _ held

theorem reading {view : σ → α} (holds : ∀ state, pre state → post (.ok (view state)) state) :
    Triple pre (read view) post := by
  intro state outcome next held ran
  cases ran
  exact holds _ held

theorem changing {f : σ → σ} {post : Except ε Unit → σ → Prop}
    (holds : ∀ state, pre state → post (.ok ()) (f state)) : Triple pre (change f) post := by
  intro state outcome next held ran
  cases ran
  exact holds _ held

/-- Reading the state and going on with what it showed. -/
theorem consulting {view : σ → α} {next : α → Run σ ε β} {after : Except ε β → σ → Prop}
    (rest : ∀ value, Triple (fun state => pre state ∧ view state = value) (next value) after) :
    Triple pre (read view >>= next) after :=
  fun state outcome last held ran => rest _ state outcome last ⟨held, rfl⟩ ran

/-- Changing the state and going on. -/
theorem adjusting {f : σ → σ} {middle : σ → Prop} {next : Run σ ε β}
    {after : Except ε β → σ → Prop} (holds : ∀ state, pre state → middle (f state))
    (rest : Triple middle next after) : Triple pre (change f >>= fun _ => next) after :=
  fun state outcome last held ran => rest (f state) outcome last (holds state held) ran

/-- What holds before whatever the state is. -/
theorem given {fact : Prop} (triple : fact → Triple pre run post) :
    Triple (fun state => fact ∧ pre state) run post :=
  fun state outcome next held ran => triple held.1 state outcome next held.2 ran

/-- What the state shows beforehand may be used throughout. -/
theorem knowing {fact : Prop} (shows : ∀ state, pre state → fact)
    (triple : fact → Triple pre run post) : Triple pre run post :=
  fun state outcome next held ran => triple (shows state held) state outcome next held ran

theorem diverging : Triple pre (diverge : Run σ ε α) post := by
  intro state outcome next held ran
  cases ran

theorem attempting {after : Except ε (Except ε α) → σ → Prop} (triple : Triple pre run post)
    (holds : ∀ outcome state, post outcome state → after (.ok outcome) state) :
    Triple pre (attempt run) after := by
  intro state outcome next held ran
  obtain ⟨⟨caught, last⟩, ran, same⟩ := Option.map_eq_some_iff.mp ran
  cases same
  exact holds _ _ (triple _ _ _ held ran)

/-- Catching what is thrown and going on with it. -/
theorem catching {next : Except ε α → Run σ ε β} {after : Except ε β → σ → Prop}
    (first : Triple pre run post) (rest : ∀ outcome, Triple (post outcome) (next outcome) after) :
    Triple pre (attempt run >>= next) after := by
  intro state outcome last held ran
  change Run.bind (attempt run) next state = _ at ran
  unfold Run.bind attempt at ran
  cases finished : run state with
  | none =>
    rw [finished] at ran
    cases ran
  | some result =>
    obtain ⟨caught, middle⟩ := result
    rw [finished] at ran
    exact rest caught middle outcome last (first state caught middle held finished) ran

theorem resuming {caught : Except ε α} (holds : ∀ state, pre state → post caught state) :
    Triple pre (resume caught) post := by
  cases caught with
  | ok value => exact returning holds
  | error failure => exact throwing holds

/-- A property of what is left of a list and the state: it holds of nothing when the whole
list has run, and of what is left when something threw. -/
theorem each_cut {ι : Type} {body : ι → Run σ ε Unit} {left : List ι → σ → Prop}
    (step : ∀ first rest, Triple (left (first :: rest)) (body first) fun _ => left rest)
    (items : List ι) : ∀ state outcome next, left items state →
      each body items state = some (outcome, next) →
      (∀ value, outcome = .ok value → left [] next) ∧
        ∀ failure, outcome = .error failure →
          ∃ rest, cut body items state = some (rest, next) ∧ left rest next := by
  induction items with
  | nil =>
    intro state outcome next held ran
    cases ran
    exact ⟨fun _ _ => held, nofun⟩
  | cons first rest ih =>
    intro state outcome next held ran
    change Run.bind (body first) (fun _ => each body rest) state = _ at ran
    unfold Run.bind at ran
    cases started : body first state with
    | none =>
      rw [started] at ran
      cases ran
    | some result =>
      obtain ⟨caught, middle⟩ := result
      have kept := step first rest state caught middle held started
      rw [started] at ran
      rw [cut, started]
      cases caught with
      | ok value => exact ih middle outcome next kept ran
      | error failure =>
        cases ran
        exact ⟨nofun, fun _ _ => ⟨rest, rfl, kept⟩⟩

end Triple

/-- The computation returns, if it comes to an end, and this holds of what it returns. -/
def Returns (pre : σ → Prop) (run : Run σ ε α) (post : α → σ → Prop) : Prop :=
  Triple pre run fun outcome state => ∃ value, outcome = .ok value ∧ post value state

namespace Returns
variable {pre : σ → Prop} {run : Run σ ε α} {post : α → σ → Prop}

/-- Going on with what is returned. -/
theorem bind {next : α → Run σ ε β} {after : Except ε β → σ → Prop} (first : Returns pre run post)
    (rest : ∀ value, Triple (post value) (next value) after) : Triple pre (run >>= next) after := by
  refine Triple.bind first (fun value => ?_) ?_
  · refine (rest value).weaken ?_ fun _ _ held => held
    rintro state ⟨_, same, held⟩
    cases same
    exact held
  · rintro failure state ⟨_, same, _⟩
    cases same

theorem weaken {strong : σ → Prop} {weak : α → σ → Prop} (returns : Returns pre run post)
    (before : ∀ state, strong state → pre state)
    (after : ∀ value state, post value state → weak value state) : Returns strong run weak :=
  Triple.weaken returns before fun _ state ⟨value, same, held⟩ =>
    ⟨value, same, after value state held⟩

theorem pure {value : α} (holds : ∀ state, pre state → post value state) :
    Returns pre (Pure.pure value : Run σ ε α) post :=
  Triple.returning fun state held => ⟨value, rfl, holds state held⟩

theorem read {view : σ → α} (holds : ∀ state, pre state → post (view state) state) :
    Returns pre (Run.read view : Run σ ε α) post :=
  Triple.reading fun state held => ⟨_, rfl, holds state held⟩

theorem change {f : σ → σ} {post : σ → Prop} (holds : ∀ state, pre state → post (f state)) :
    Returns pre (Run.change f : Run σ ε Unit) fun _ => post :=
  Triple.changing fun state held => ⟨(), rfl, holds state held⟩

theorem diverge : Returns pre (Run.diverge : Run σ ε α) post := Triple.diverging

/-- What is returned after catching whatever is thrown. -/
theorem attempt {caught : Except ε α → σ → Prop} (triple : Triple pre run caught) :
    Returns pre (Run.attempt run) caught :=
  Triple.attempting triple fun outcome _ held => ⟨outcome, rfl, held⟩

end Returns

namespace Yields
variable {pre : σ → Prop} {run : Run σ ε α} {post : α → σ → Prop}

/-- What is thrown on the way does not matter. -/
theorem bind {next : α → Run σ ε β} {after : β → σ → Prop} (first : Yields pre run post)
    (rest : ∀ value, Yields (post value) (next value) after) :
    Yields pre (run >>= next) after := by
  intro state value last held ran
  change Run.bind run next state = _ at ran
  unfold Run.bind at ran
  split at ran
  · cases ran
  · exact rest _ _ _ _ (first _ _ _ held ‹_›) ran
  · cases ran

theorem weaken {strong : σ → Prop} {weak : α → σ → Prop} (yields : Yields pre run post)
    (before : ∀ state, strong state → pre state)
    (after : ∀ value state, post value state → weak value state) : Yields strong run weak :=
  fun state value next held ran => after _ _ (yields state value next (before _ held) ran)

theorem both {other : σ → Prop} {also : α → σ → Prop} (first : Yields pre run post)
    (second : Yields other run also) :
    Yields (fun state => pre state ∧ other state) run fun value state =>
      post value state ∧ also value state :=
  fun state value next held ran =>
    ⟨first state value next held.1 ran, second state value next held.2 ran⟩

/-- What is returned comes from a run of the computation where it was started. -/
theorem traced (yields : Yields pre run post) : Yields pre run fun value state =>
    post value state ∧ ∃ before, pre before ∧ run before = some (.ok value, state) :=
  fun state value next held ran => ⟨yields state value next held ran, state, held, ran⟩

theorem of_keeps {invariant : σ → Prop} (kept : Keeps invariant run) :
    Yields invariant run fun _ => invariant :=
  fun state _ next held ran => kept state _ next held ran

theorem pure {value : α} (holds : ∀ state, pre state → post value state) :
    Yields pre (Pure.pure value : Run σ ε α) post := by
  intro state _ next held ran
  cases ran
  exact holds _ held

theorem throw {failure : ε} : Yields pre (Run.throw failure : Run σ ε α) post := by
  intro state _ next held ran
  cases ran

theorem diverge : Yields pre (Run.diverge : Run σ ε α) post := by
  intro state _ next held ran
  cases ran

/-- Reading the state and going on with what it showed. -/
theorem read {view : σ → α} {next : α → Run σ ε β} {after : β → σ → Prop}
    (rest : ∀ value, Yields (fun state => pre state ∧ view state = value) (next value) after) :
    Yields pre (Run.read view >>= next) after :=
  fun state outcome last held ran => rest _ state outcome last ⟨held, rfl⟩ ran

theorem change {f : σ → σ} {post : σ → Prop} (holds : ∀ state, pre state → post (f state)) :
    Yields pre (Run.change f : Run σ ε Unit) fun _ => post := by
  intro state _ next held ran
  cases ran
  exact holds _ held

/-- What is caught is what would have been returned, or was thrown. -/
theorem attempt (yields : Yields pre run post) :
    Yields pre (Run.attempt run) fun outcome state =>
      ∀ value, outcome = .ok value → post value state := by
  intro state outcome next held ran value same
  obtain ⟨⟨caught, last⟩, ran, kept⟩ := Option.map_eq_some_iff.mp ran
  cases kept
  cases same
  exact yields state value next held ran

theorem resume {caught : Except ε α} (holds : ∀ state value, pre state → caught = .ok value →
    post value state) : Yields pre (Run.resume caught) post := by
  cases caught with
  | ok value => exact pure fun state held => holds state value held rfl
  | error failure => exact throw

/-- What the state shows beforehand may be used throughout. -/
theorem knowing {fact : Prop} (shows : ∀ state, pre state → fact)
    (yields : fact → Yields pre run post) : Yields pre run post :=
  fun state value next held ran => yields (shows state held) state value next held ran

/-- What comes first does not matter where nothing is asked of it. -/
theorem skip {first : Run σ ε β} {next : β → Run σ ε α}
    (rest : ∀ value, Yields (fun _ => True) (next value) post) :
    Yields pre (first >>= next) post :=
  bind (fun _ _ _ _ _ => trivial : Yields pre first fun _ _ => True) rest

/-- Nothing is returned after something has been thrown. -/
theorem thrown {γ : Type} {failure : ε} {next : α → Run σ ε γ} {after : γ → σ → Prop}
    {first : Run σ ε β} :
    Yields pre (first >>= fun _ => (Run.throw failure : Run σ ε α) >>= next) after :=
  skip fun _ => bind (throw : Yields _ _ fun _ _ => False) fun _ _ _ _ absurd => absurd.elim

theorem each {ι : Type} {body : ι → Run σ ε Unit} (left : List ι → σ → Prop)
    (step : ∀ first rest, Yields (left (first :: rest)) (body first) fun _ => left rest)
    (items : List ι) : Yields (left items) (Run.each body items) fun _ => left [] := by
  induction items with
  | nil => exact pure fun _ held => held
  | cons first rest ih => exact bind (step first rest) fun _ => ih

theorem anyOf {ι : Type} {body : ι → Run σ ε Bool}
    (kept : ∀ item, Yields pre (body item) fun _ => pre) (items : List ι) :
    Yields pre (Run.anyOf body items) fun _ => pre := by
  induction items with
  | nil => exact pure fun _ held => held
  | cons first rest ih =>
    exact bind (kept first) fun _ => bind ih fun _ => pure fun _ held => held

end Yields

namespace Keeps
variable {invariant : σ → Prop} {run : Run σ ε α}

theorem bind {next : α → Run σ ε β} (first : Keeps invariant run)
    (rest : ∀ value, Keeps invariant (next value)) : Keeps invariant (run >>= next) :=
  Triple.bind first rest fun _ _ held => held

theorem pure {value : α} : Keeps invariant (Pure.pure value : Run σ ε α) :=
  Triple.returning fun _ held => held

theorem throw {failure : ε} : Keeps invariant (Run.throw failure : Run σ ε α) :=
  Triple.throwing fun _ held => held

theorem read {view : σ → α} : Keeps invariant (Run.read view : Run σ ε α) :=
  Triple.reading fun _ held => held

theorem change {f : σ → σ} (kept : ∀ state, invariant state → invariant (f state)) :
    Keeps invariant (Run.change f : Run σ ε Unit) := Triple.changing kept

theorem diverge : Keeps invariant (Run.diverge : Run σ ε α) := Triple.diverging

theorem attempt (kept : Keeps invariant run) : Keeps invariant (Run.attempt run) :=
  Triple.attempting kept fun _ _ held => held

theorem resume {caught : Except ε α} : Keeps invariant (Run.resume caught : Run σ ε α) :=
  Triple.resuming fun _ held => held

theorem each {ι : Type} {body : ι → Run σ ε Unit} (kept : ∀ item, Keeps invariant (body item))
    (items : List ι) : Keeps invariant (Run.each body items) := by
  induction items with
  | nil => exact pure
  | cons first rest ih => exact bind (kept first) fun _ => ih

theorem anyOf {ι : Type} {body : ι → Run σ ε Bool} (kept : ∀ item, Keeps invariant (body item))
    (items : List ι) : Keeps invariant (Run.anyOf body items) := by
  induction items with
  | nil => exact pure
  | cons first rest ih => exact bind (kept first) fun _ => bind ih fun _ => pure

end Keeps

namespace Refines
variable {first second : Run σ ε α}

theorem refl (run : Run σ ε α) : Refines run run := fun _ _ ran => ran

theorem bind {next last : α → Run σ ε β} (start : Refines first second)
    (rest : ∀ value, Refines (next value) (last value)) :
    Refines (first >>= next) (second >>= last) := by
  intro state result ran
  change Run.bind first next state = _ at ran
  change Run.bind second last state = _
  unfold Run.bind at ran ⊢
  cases started : first state with
  | none =>
    rw [started] at ran
    cases ran
  | some middle =>
    obtain ⟨outcome, middle⟩ := middle
    rw [started] at ran
    rw [start state _ started]
    cases outcome with
    | ok value => exact rest value middle result ran
    | error failure => exact ran

theorem attempt (refines : Refines first second) :
    Refines (Run.attempt first) (Run.attempt second) := by
  intro state result ran
  obtain ⟨middle, started, same⟩ := Option.map_eq_some_iff.mp ran
  exact Option.map_eq_some_iff.mpr ⟨middle, refines state middle started, same⟩

end Refines

namespace KeepsIf
variable {thrown : Prop} {invariant : σ → Prop} {run : Run σ ε α}

theorem of_keeps (kept : Keeps invariant run) : KeepsIf thrown invariant run :=
  kept.weaken (fun _ held => held) fun _ _ held _ => held

theorem keeps (kept : KeepsIf True invariant run) : Keeps invariant run :=
  kept.weaken (fun _ held => held) fun _ _ held => held (Or.inr trivial)

theorem bind {next : α → Run σ ε β} (first : KeepsIf thrown invariant run)
    (rest : ∀ value, KeepsIf thrown invariant (next value)) :
    KeepsIf thrown invariant (run >>= next) := by
  refine Triple.bind first (fun value => ?_) fun failure state held asked => ?_
  · exact (rest value).weaken (fun _ held => held (Or.inl ⟨value, rfl⟩)) fun _ _ held => held
  · rcases asked with ⟨_, returned⟩ | asked
    · cases returned
    · exact held (Or.inr asked)

/-- What is done whether the computation returns or throws, before it throws on. -/
theorem ensuring {f : σ → σ} (kept : KeepsIf thrown invariant run)
    (after : ∀ state, invariant state → invariant (f state)) :
    KeepsIf thrown invariant (do
      let outcome ← Run.attempt run
      Run.change f
      Run.resume outcome) := by
  refine Triple.catching kept fun outcome => ?_
  have finished : Triple (fun state => (∃ value, outcome = .ok value) ∨ thrown → invariant state)
      (Run.resume outcome : Run σ ε α) fun outcome state =>
        (∃ value, outcome = .ok value) ∨ thrown → invariant state :=
    Triple.resuming fun _ held => held
  exact Triple.adjusting (fun state held asked => after state (held asked)) finished

end KeepsIf

/-! Computations that come to an end. -/

/-- Started here the computation returns, and this holds of the value and of the state. -/
def Completes (run : Run σ ε α) (state : σ) (post : α → σ → Prop) : Prop :=
  ∃ value next, run state = some (.ok value, next) ∧ post value next

namespace Completes
variable {run : Run σ ε α} {rest : α → Run σ ε β} {state : σ} {post weaker : α → σ → Prop}
  {after : β → σ → Prop}

theorem mono (completes : Completes run state post)
    (weaken : ∀ value next, post value next → weaker value next) : Completes run state weaker := by
  obtain ⟨value, next, ran, held⟩ := completes
  exact ⟨value, next, ran, weaken value next held⟩

theorem pure {value : α} (held : post value state) :
    Completes (Pure.pure value : Run σ ε α) state post := ⟨value, state, rfl, held⟩

theorem bind (first : Completes run state fun value next => Completes (rest value) next after) :
    Completes (run >>= rest) state after := by
  obtain ⟨value, middle, ran, result, next, ended, held⟩ := first
  exact ⟨result, next, bind_ends_iff.mpr (.inl ⟨value, middle, ran, ended⟩), held⟩

/-- Going on with what the state shows. -/
theorem reading {view : σ → α} (going : Completes (rest (view state)) state after) :
    Completes (read view >>= rest) state after := going

/-- Going on from a state that is changed. -/
theorem changing {f : σ → σ} {rest : Unit → Run σ ε β}
    (going : Completes (rest ()) (f state) after) : Completes (change f >>= rest) state after := going

theorem change {f : σ → σ} {post : Unit → σ → Prop} (held : post () (f state)) :
    Completes (Run.change f : Run σ ε Unit) state post := ⟨(), f state, rfl, held⟩

theorem resume {caught : Except ε α} {value : α} (returned : caught = .ok value)
    (held : post value state) : Completes (Run.resume caught : Run σ ε α) state post :=
  ⟨value, state, by rw [returned]; rfl, held⟩

/-- Going on with a value that was not thrown. -/
theorem resuming {caught : Except ε α} {value : α} (returned : caught = .ok value)
    (going : Completes (rest value) state after) :
    Completes (Run.resume caught >>= rest) state after :=
  bind (resume returned going)

/-- Catching what a computation throws that returns. -/
theorem attempting {rest : Except ε α → Run σ ε β}
    (first : Completes run state fun value next => Completes (rest (.ok value)) next after) :
    Completes (Run.attempt run >>= rest) state after := by
  obtain ⟨value, middle, ran, result, next, ended, held⟩ := first
  exact ⟨result, next, attempt_ends_iff.mpr ⟨_, middle, ran, ended⟩, held⟩

end Completes

end Effect
