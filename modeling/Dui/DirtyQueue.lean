import Dui.BuildRuns

/-! Whether dirty elements stay queued. A flush takes the whole queue over before it
visits the first element, and drops what is left of it when a rebuild throws. -/
namespace Dui
open Effect BuildOwner

variable {α : Type} [DecidableEq α]

/-- A flush that throws has nothing left to rebuild of the pass it was in. -/
def spares (program : Program α) (fuel : Nat) (owner : BuildOwner α) : Bool :=
  match leftOver program fuel owner with
  | none => true
  | some (rest, last) => rest.all fun id => !needsRebuild last id

/-- A flush where it is not cut short with something left to rebuild. -/
def sparingFlush (program : Program α) (fuel : Nat) : Building α Unit := fun owner =>
  if spares program fuel owner then flush program fuel owner else none

/-- None of the flushes of a call is cut short with something left to rebuild. -/
def sparesAll (program : Program α) (fuel : Nat) (call : Call α) (owner : BuildOwner α) : Bool :=
  (performWith program (sparingFlush program fuel) fuel call owner).isSome

theorem sparing_refines (program : Program α) (fuel : Nat) :
    Refines (sparingFlush program fuel) (flush program fuel) := by
  intro owner result ran
  unfold sparingFlush at ran
  split at ran
  · exact ran
  · cases ran

theorem frame_loop_refines (program : Program α) (renderer : Renderer α) (fuel : Nat)
    {first second : Building α Unit} (refines : Refines first second) (rounds : Nat) :
    Refines (frameLoop program renderer first fuel rounds)
      (frameLoop program renderer second fuel rounds) := by
  induction rounds with
  | zero => exact .refl _
  | succ rounds ih =>
    refine .bind (.refl _) fun requests => ?_
    cases requests with
    | none => exact .refl _
    | some requests => exact .bind (.refl _) fun _ => .bind refines fun _ => ih

theorem perform_refines (program : Program α) (fuel : Nat) (call : Call α) :
    Refines (performWith program (sparingFlush program fuel) fuel call)
      (perform program fuel call) := by
  have refines := sparing_refines program fuel
  cases call with
  | flush => exact refines
  | layerFrame renderer =>
    refine .bind (.refl _) fun framing => ?_
    split
    · exact .refl _
    · exact .bind (.refl _) fun _ => .bind (.attempt (.bind refines fun _ =>
        frame_loop_refines program renderer fuel refines _)) fun _ => .refl _
  | render => exact .refl _
  | setState => exact .refl _
  | setSignal => exact .refl _
  | createSignal => exact .refl _
  | destroySignal => exact .refl _

omit [DecidableEq α] in
/-- A pass is done with elements that are not to be rebuilt. -/
theorem skip_all {exempt scopes : List ElementId} {owner : BuildOwner α} (rest : List ElementId) :
    owner.Tracked rest exempt scopes → (∀ id ∈ rest, needsRebuild owner id = false) →
    owner.Tracked [] exempt scopes := by
  induction rest with
  | nil => exact fun tracked _ => tracked
  | cons id rest ih =>
    exact fun tracked clean => ih (tracked.skip (clean id List.mem_cons_self))
      fun other listed => clean other (List.mem_cons_of_mem id listed)

/-- A flush that has nothing left to rebuild keeps the bookkeeping. -/
theorem sparing_keeps (program : Program α) (fuel : Nat) :
    Keeps (Tracked [] [] []) (sparingFlush program fuel) := by
  intro owner outcome next tracked ran
  unfold sparingFlush at ran
  split at ran
  · rename_i spared
    obtain ⟨returned, threw⟩ := flush_spec tracked ran
    cases outcome with
    | ok value => exact (returned value rfl).1
    | error failure =>
      rcases threw failure rfl with tracked | ⟨rest, last, left, tracked, rfl⟩
      · exact tracked
      · unfold spares at spared
        rw [left] at spared
        refine tracked_reconciling (skip_all rest tracked fun id listed => ?_) false
        have clean := List.all_eq_true.mp spared id listed
        exact Bool.not_eq_true' _ ▸ clean
  · cases ran

theorem spared_call_tracked {program : Program α} {fuel : Nat} {call : Call α}
    {owner next : BuildOwner α} {outcome : Except Failure Unit} (tracked : owner.Tracked [] [] [])
    (spared : sparesAll program fuel call owner = true)
    (performed : perform program fuel call owner = some (outcome, next)) :
    next.Tracked [] [] [] := by
  obtain ⟨result, sparing⟩ := Option.isSome_iff_exists.mp spared
  have same := (perform_refines program fuel call owner result sparing).symm.trans performed
  cases same
  exact (perform_with_keeps program fuel (.of_keeps (sparing_keeps program fuel)) call).keeps owner
    outcome next tracked sparing

/-- In every run in which no flush is cut short with something left to rebuild, an
element whose flag is set is queued, so that the next flush rebuilds it. -/
theorem dirty_is_queued (script : List (Program α × Nat × Call α)) {owner : BuildOwner α}
    (spared : throughout sparesAll script {} = true)
    (ran : performEach script {} = some owner) (program : Program α) :
    ∀ id element, owner.registry id = some element → element.dirty = true →
      id ∈ owner.dirty ∧ id ∈ pendingOf program owner ∧ needsRebuild owner id = true := by
  intro id element mounted dirty
  have tracked : owner.Tracked [] [] [] :=
    run_keeps (fun _ _ _ _ _ _ => spared_call_tracked) script {} owner tracked_initially spared ran
  have kept := tracked.elements id element mounted
  have queued : id ∈ owner.dirty := (kept.queued dirty).resolve_right List.not_mem_nil
  exact ⟨queued, (pending_iff program owner id).mpr queued,
    needs_rebuild_iff.mpr ⟨element, mounted, dirty, kept.armed dirty⟩⟩

/-- Two components show a signal, and the first cannot be built for every value. -/
def pickyProgram : Program Nat where
  build type _ := .get 0 fun value =>
    if type = 0 ∧ value = 1 then .throw (.runtimeError "not this one")
    else .done (.leaf 0 none value)
  item _ value := .done (.leaf 0 none value)

/-- The one that throws is rebuilt last, and both are dirty again afterwards. -/
def pickyScript : List (Program Nat × Nat × Call Nat) :=
  [.createSignal true 0, .render (.group 0 none [.component 0 0, .component 1 0]),
    .setSignal 0 1, .flush, .setSignal 0 2].map (pickyProgram, 9, ·)

theorem dirty_is_queued_picky : ∃ (owner : BuildOwner Nat) (element : Element Nat),
    performEach pickyScript {} = some owner ∧ owner.registry 2 = some element ∧
      2 ∈ owner.dirty ∧ 2 ∈ pendingOf pickyProgram owner ∧ needsRebuild owner 2 = true := by
  have ran : ((performEach pickyScript {}).bind fun owner =>
      (owner.registry 2).map fun element => element.dirty) = some true := by
    decide +kernel
  obtain ⟨owner, ran, shown⟩ := Option.bind_eq_some_iff.mp ran
  obtain ⟨element, mounted, dirty⟩ := Option.map_eq_some_iff.mp shown
  exact ⟨owner, element, ran, mounted,
    dirty_is_queued pickyScript (by decide +kernel) ran pickyProgram 2 element mounted dirty⟩

/-- The one that throws is rebuilt first, and the other is dropped from the queue. -/
def droppingScript : List (Program Nat × Nat × Call Nat) :=
  [.createSignal true 0, .render (.group 0 none [.component 1 0, .component 0 0]),
    .setSignal 0 1, .flush].map (pickyProgram, 9, ·)

theorem dropped_from_queue : ¬ ∀ (script : List (Program Nat × Nat × Call Nat))
    (owner : BuildOwner Nat), performEach script {} = some owner →
    ∀ id element, owner.registry id = some element → element.dirty = true → id ∈ owner.dirty := by
  intro queued
  have ran : ((performEach droppingScript {}).bind fun owner =>
      (owner.registry 2).map fun element => (element.dirty, owner.dirty)) = some (true, []) := by
    decide +kernel
  obtain ⟨owner, ran, shown⟩ := Option.bind_eq_some_iff.mp ran
  obtain ⟨element, mounted, shown⟩ := Option.map_eq_some_iff.mp shown
  have listed := queued droppingScript owner ran 2 element mounted
    (congrArg Prod.fst shown)
  rw [show owner.dirty = [] from congrArg Prod.snd shown] at listed
  cases listed

end Dui
