import Dui.BuildRuns

/-! A flush leaves no stale component: in every run whose flushes and frames return, a
flush that returns leaves an empty queue, and everything that the latest build of a
mounted element has read still has the value the build has read. -/
namespace Dui
open Effect BuildOwner

variable {α : Type} [DecidableEq α]

/-- No build throws out of a flush or a frame. -/
def returns (program : Program α) (fuel : Nat) (call : Call α) (owner : BuildOwner α) : Bool :=
  match call, perform program fuel call owner with
  | .flush, some (.error _, _) => false
  | .layerFrame _, some (.error _, _) => false
  | _, _ => true

/-- A flush that returns keeps the bookkeeping. -/
theorem flush_returning (program : Program α) (fuel : Nat) :
    KeepsIf False (Tracked [] [] []) (flush program fuel) := by
  intro owner outcome next tracked ran asked
  rcases asked with ⟨value, returned⟩ | asked
  · exact ((flush_spec tracked ran).1 value returned).1
  · exact asked.elim

/-- A call that does not throw out of a flush keeps the bookkeeping. -/
theorem returned_call_tracked {program : Program α} {fuel : Nat} {call : Call α}
    {owner next : BuildOwner α} {outcome : Except Failure Unit} (tracked : owner.Tracked [] [] [])
    (returned : returns program fuel call owner = true)
    (performed : perform program fuel call owner = some (outcome, next)) :
    next.Tracked [] [] [] := by
  have kept := perform_with_keeps program fuel (flush_returning program fuel) call owner outcome
    next tracked performed
  unfold returns at returned
  rw [performed] at returned
  cases call with
  | render view => exact render_keeps program fuel view owner outcome next tracked performed
  | setState handle value => exact set_state_keeps handle value owner outcome next tracked performed
  | setSignal signal value =>
    cases performed
    exact tracked.write _ value
  | createSignal comparable value =>
    cases performed
    exact tracked.createSignal comparable value
  | destroySignal signal =>
    cases performed
    exact tracked.dropSource nofun
  | flush =>
    cases outcome with
    | ok value => exact kept (Or.inl ⟨value, rfl⟩)
    | error failure => cases returned
  | layerFrame renderer =>
    cases outcome with
    | ok value => exact kept (Or.inl ⟨value, rfl⟩)
    | error failure => cases returned

omit [DecidableEq α] in
/-- An element that is neither exempt nor dirty is up to date. -/
theorem fresh_of_clean {owner : BuildOwner α} (tracked : owner.Tracked [] [] [])
    (clean : owner.dirty = []) {id : ElementId} {element : Element α}
    (mounted : owner.registry id = some element) : owner.Fresh element := by
  have kept := tracked.elements id element mounted
  refine (kept.settled List.not_mem_nil).resolve_right fun dirty => ?_
  rcases kept.queued dirty with queued | queued
  · rw [clean] at queued
    cases queued
  · cases queued

/-- A flush leaves nothing dirty and no stale component. -/
theorem flush_leaves_fresh (script : List (Program α × Nat × Call α)) (program : Program α)
    (fuel : Nat) {owner next : BuildOwner α} (returned : throughout returns script {} = true)
    (ran : performEach script {} = some owner)
    (flushed : flush program fuel owner = some (.ok (), next)) :
    next.dirty = [] ∧
      ∀ id element, next.registry id = some element → next.Fresh element := by
  have tracked : owner.Tracked [] [] [] :=
    run_keeps (fun _ _ _ _ _ _ => returned_call_tracked) script {} owner tracked_initially returned ran
  obtain ⟨settled, clean⟩ := (flush_spec tracked flushed).1 () rfl
  exact ⟨clean, fun id element => fresh_of_clean settled clean⟩

/-- A component that shows a signal and rewrites its own state while it is built. -/
def echoProgram : Program Nat where
  build _ descriptor := .get 0 fun value => .state "seen" true descriptor fun handle =>
    .getState handle fun seen => .setState handle value (.done (.leaf 0 none (value + seen)))
  item _ value := .done (.leaf 0 none value)

def echoScript : List (Program Nat × Nat × Call Nat) :=
  [.createSignal true 5, .render (.component 0 7), .setSignal 0 6].map (echoProgram, 9, ·)

theorem flush_leaves_fresh_echo : ∃ owner next : BuildOwner Nat,
    performEach echoScript {} = some owner ∧
    flush echoProgram 9 owner = some (.ok (), next) ∧ next.dirty = [] ∧
    (next.registry 1).map (fun element => element.reads) =
      some [(.dependency (.signal 0), 6), (.slot "seen", 6)] ∧
    ∀ id element, next.registry id = some element → next.Fresh element := by
  have flushed : ((performEach echoScript {}).bind fun owner =>
      (flush echoProgram 9 owner).map fun (outcome, next) =>
        (outcome.isOk, (next.registry 1).map fun element => element.reads)) =
      some (true, some [(.dependency (.signal 0), 6), (.slot "seen", 6)]) := by
    decide +kernel
  obtain ⟨owner, ran, flushed⟩ := Option.bind_eq_some_iff.mp flushed
  obtain ⟨⟨_ | _, next⟩, flushed, shown⟩ := Option.map_eq_some_iff.mp flushed
  · cases shown
  · obtain ⟨clean, fresh⟩ := flush_leaves_fresh echoScript echoProgram 9 (by decide +kernel) ran
      flushed
    exact ⟨owner, next, ran, flushed, clean, congrArg Prod.snd shown, fresh⟩

end Dui
