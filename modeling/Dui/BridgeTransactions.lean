import Dui.AccessibilityBridge
import Dui.Transition

/-! What a bridge has acknowledged, over any calls on it. An adapter may make calls on the
bridge that delivers to it, may throw, and may destroy the bridge; publications may be
acknowledged and rejected late or not at all. -/
namespace Dui
open ForestEdit Transition

/-- A call on a bridge, or what the adapter does that is being delivered to. -/
inductive BridgeAction where
  | publish (tree : SemanticsTree)
  | clear
  | prepare (tree : SemanticsTree)
  | prepareClear
  | acknowledge (generation : Nat)
  | reject (generation : Nat)
  | retry
  | resetAcknowledged
  /-- The adapter returns or throws. -/
  | adapterEnds (outcome : Except Failure Unit)
  | destroy

/-- A bridge in use, with the call of an adapter that is under way, the batches taken since
the last reset, and every publication made. -/
structure BridgeRun where
  bridge : AccessibilityBridge := {}
  alive : Bool := true
  delivery : Option BridgeDelivery := none
  taken : List SemanticsUpdate := []
  issued : List AccessibilityPublication := []

namespace BridgeRun

/-- A call that hands out a publication, or throws and changes nothing. -/
def issue (run : BridgeRun) :
    Except Failure (Option AccessibilityPublication × AccessibilityBridge) → BridgeRun
  | .error _ => run
  | .ok (publication, bridge) =>
    { run with bridge, issued := run.issued ++ publication.toList }

/-- A call that calls the adapter, or throws and changes nothing. -/
def deliver (run : BridgeRun) :
    Except Failure (Option BridgeDelivery × AccessibilityBridge) → BridgeRun
  | .error _ => run
  | .ok (none, bridge) => { run with bridge }
  | .ok (some delivery, bridge) => { run with bridge, delivery := some delivery }

def acknowledge (run : BridgeRun) (generation : Nat) : BridgeRun :=
  match run.bridge.acknowledge generation, run.bridge.transaction with
  | (true, bridge), some transaction =>
    { run with bridge, taken := run.taken ++ [transaction.update] }
  | (_, bridge), _ => { run with bridge }

/-- The adapter that is being delivered to is done. -/
def adapterEnds (run : BridgeRun) (delivery : BridgeDelivery) (outcome : Except Failure Unit) :
    BridgeRun :=
  { run with
    bridge := (run.bridge.endDelivery delivery run.alive outcome).2
    delivery := none
    taken := match outcome with
      | .ok () => if run.alive then run.taken ++ [delivery.update] else run.taken
      | .error _ => run.taken }

def step (run : BridgeRun) : BridgeAction → Option BridgeRun
  | .adapterEnds outcome => run.delivery.map fun delivery => run.adapterEnds delivery outcome
  | action =>
    if ¬ run.alive then none
    else match action with
      | .publish tree => some (run.deliver (run.bridge.publish tree))
      | .clear => some (run.deliver run.bridge.clear)
      | .prepare tree => some (run.issue (run.bridge.prepare tree))
      | .prepareClear => some (run.issue run.bridge.prepareClear)
      | .acknowledge generation => some (run.acknowledge generation)
      | .reject generation => some { run with bridge := (run.bridge.reject generation).2 }
      | .retry => some (run.issue run.bridge.retry)
      | .resetAcknowledged =>
        match run.bridge.resetAcknowledged with
        | .error _ => some run
        | .ok bridge => some { run with bridge, taken := [] }
      | .adapterEnds _ => none
      | .destroy => some { run with alive := false }

end BridgeRun

def bridgeMachine : Machine BridgeRun BridgeAction where
  init run := run = {}
  step := BridgeRun.step

/-- What a bridge holds is what the batches taken come to, and whatever is on its way turns
that into its candidate. -/
structure BridgeRun.Exact (run : BridgeRun) : Prop where
  ordered : Ordered entryKeys run.bridge.differ.entries
  taken : mirrorAfter run.taken.flatten = some (mirrorOf entryKeys run.bridge.differ.entries)
  transaction : ∀ transaction, run.bridge.transaction = some transaction →
    run.bridge.differ.Emits transaction.candidate transaction.update ∧
      ⟨transaction.generation, transaction.update⟩ ∈ run.issued
  delivery : ∀ delivery, run.delivery = some delivery →
    run.bridge.transaction = none ∧ run.bridge.differ.Emits delivery.candidate delivery.update
  delivering : run.bridge.delivering = run.delivery.isSome
  issued : ∀ publication ∈ run.issued, publication.generation < run.bridge.nextGeneration

namespace BridgeRun
variable {run : BridgeRun}

theorem taken_append {update : SemanticsUpdate} {next : SemanticsDiffer}
    (taken : mirrorAfter run.taken.flatten = some (mirrorOf entryKeys run.bridge.differ.entries))
    (emits : run.bridge.differ.Emits next update) :
    mirrorAfter (run.taken ++ [update]).flatten = some (mirrorOf entryKeys next.entries) := by
  rw [List.flatten_append, mirrorAfter, replay_append, ← mirrorAfter, taken, Option.bind_some,
    List.flatten_singleton]
  exact emits.replayed

/-- A transaction begins where there is none. -/
theorem Exact.begin (exact : run.Exact) (idle : run.delivery = none)
    {candidate : SemanticsDiffer} {update : SemanticsUpdate}
    (emits : run.bridge.differ.Emits candidate update) :
    (run.issue (run.bridge.beginTransaction candidate update)).Exact := by
  unfold AccessibilityBridge.beginTransaction
  split
  · simp only [issue, Option.toList_none, List.append_nil]
    exact exact
  · split
    · exact exact
    · refine ⟨exact.ordered, exact.taken, fun transaction held => ?_, fun delivery held => ?_,
        exact.delivering, fun publication listed => ?_⟩
      · cases held
        exact ⟨emits, List.mem_append_right _ (List.mem_singleton_self _)⟩
      · cases idle.symm.trans held
      · rcases List.mem_append.mp listed with listed | listed
        · exact Nat.lt_succ_of_lt (exact.issued publication listed)
        · cases List.mem_singleton.mp listed
          exact Nat.lt_succ_self _

/-- A delivery begins where nothing is on its way. -/
theorem Exact.deliver (exact : run.Exact) (idle : run.bridge.transaction = none)
    {candidate : SemanticsDiffer} {update : SemanticsUpdate}
    (emits : run.bridge.differ.Emits candidate update) :
    (run.deliver (.ok (run.bridge.beginDelivery update candidate))).Exact := by
  unfold AccessibilityBridge.beginDelivery
  split
  · exact exact
  · refine ⟨exact.ordered, exact.taken, exact.transaction, fun delivery held => ?_, rfl,
      exact.issued⟩
    cases held
    exact ⟨idle, emits⟩

/-- A bridge that does not refuse a call has nothing on its way. -/
theorem Exact.idle (exact : run.Exact)
    (idle : ¬(run.bridge.delivering ∨ run.bridge.transaction.isSome)) :
    run.delivery = none ∧ run.bridge.transaction = none := by
  rw [not_or, exact.delivering] at idle
  exact ⟨by simpa using idle.1, by simpa using idle.2⟩

theorem Exact.prepare (exact : run.Exact) (tree : SemanticsTree) :
    (run.issue (run.bridge.prepare tree)).Exact := by
  unfold AccessibilityBridge.prepare
  split
  · exact exact
  · rename_i free
    split
    · exact exact
    · exact exact.begin (exact.idle free).1 (update_emits exact.ordered ‹_›)

theorem Exact.prepare_clear (exact : run.Exact) :
    (run.issue run.bridge.prepareClear).Exact := by
  unfold AccessibilityBridge.prepareClear
  split
  · exact exact
  · exact exact.begin (exact.idle ‹_›).1 (clear_emits exact.ordered)

theorem Exact.publish (exact : run.Exact) (tree : SemanticsTree) :
    (run.deliver (run.bridge.publish tree)).Exact := by
  unfold AccessibilityBridge.publish
  split
  · exact exact
  · rename_i free
    split
    · exact exact
    · exact exact.deliver (exact.idle free).2 (update_emits exact.ordered ‹_›)

theorem Exact.clear (exact : run.Exact) : (run.deliver run.bridge.clear).Exact := by
  unfold AccessibilityBridge.clear
  split
  · exact exact
  · exact exact.deliver (exact.idle ‹_›).2 (clear_emits exact.ordered)

theorem flies_iff {bridge : AccessibilityBridge} {generation : Nat} :
    bridge.flies generation = true ↔ ∃ transaction, bridge.transaction = some transaction ∧
      transaction.inFlight = true ∧ transaction.generation = generation := by
  unfold AccessibilityBridge.flies
  cases bridge.transaction with
  | none => simp
  | some transaction => simp

theorem acknowledge_other {bridge : AccessibilityBridge} {generation : Nat}
    (other : bridge.flies generation = false) : bridge.acknowledge generation = (false, bridge) := by
  unfold AccessibilityBridge.acknowledge
  split
  · rfl
  · rw [if_neg (by simp [other])]

theorem reject_other {bridge : AccessibilityBridge} {generation : Nat}
    (other : bridge.flies generation = false) : bridge.reject generation = (false, bridge) := by
  unfold AccessibilityBridge.reject
  split
  · rfl
  · rw [if_neg (by simp [other])]

theorem Exact.acknowledge (exact : run.Exact) (generation : Nat) :
    (run.acknowledge generation).Exact := by
  cases flies : run.bridge.flies generation with
  | false =>
    rw [BridgeRun.acknowledge, acknowledge_other flies]
    exact exact
  | true =>
    obtain ⟨transaction, held, flying, same⟩ := flies_iff.mp flies
    obtain ⟨emits, _⟩ := exact.transaction transaction held
    rw [BridgeRun.acknowledge, AccessibilityBridge.acknowledge, held]
    simp only [flies, if_true]
    refine ⟨emits.ordered, taken_append exact.taken emits, nofun, fun delivery delivered => ?_,
      exact.delivering, exact.issued⟩
    cases held.symm.trans (exact.delivery delivery delivered).1

theorem Exact.reject (exact : run.Exact) (generation : Nat) :
    ({ run with bridge := (run.bridge.reject generation).2 } : BridgeRun).Exact := by
  cases flies : run.bridge.flies generation with
  | false =>
    rw [reject_other flies]
    exact exact
  | true =>
    obtain ⟨transaction, held, flying, same⟩ := flies_iff.mp flies
    obtain ⟨emits, listed⟩ := exact.transaction transaction held
    rw [AccessibilityBridge.reject, held]
    simp only [flies, if_true]
    refine ⟨exact.ordered, exact.taken, fun rejected now => ?_, fun delivery delivered => ?_,
      exact.delivering, exact.issued⟩
    · cases now
      exact ⟨emits, listed⟩
    · cases held.symm.trans (exact.delivery delivery delivered).1

/-- A retry that hands out a publication: the same batch, under a new generation. -/
theorem retry_some {bridge next : AccessibilityBridge} {publication : AccessibilityPublication}
    (retried : bridge.retry = .ok (some publication, next)) :
    ∃ transaction, bridge.transaction = some transaction ∧ transaction.inFlight = false ∧
      publication = ⟨bridge.nextGeneration, transaction.update⟩ ∧
      next = { bridge with
        transaction := some { transaction with
          generation := publication.generation
          inFlight := true }
        nextGeneration := bridge.nextGeneration + 1 } := by
  unfold AccessibilityBridge.retry at retried
  split at retried
  · cases retried
  · rename_i transaction held
    split at retried
    · cases retried
    · rename_i landed
      split at retried
      · cases retried
      · cases retried
        exact ⟨transaction, held, by simpa using landed, rfl, rfl⟩

theorem retry_none {bridge next : AccessibilityBridge}
    (retried : bridge.retry = .ok (none, next)) : next = bridge := by
  unfold AccessibilityBridge.retry at retried
  split at retried
  · cases retried
    rfl
  · split at retried
    · cases retried
      rfl
    · split at retried
      · cases retried
      · cases retried

theorem Exact.retry (exact : run.Exact) : (run.issue run.bridge.retry).Exact := by
  cases retried : run.bridge.retry with
  | error failure => exact exact
  | ok result =>
    obtain ⟨publication, next⟩ := result
    cases publication with
    | none =>
      obtain rfl := retry_none retried
      simp only [issue, Option.toList_none, List.append_nil]
      exact exact
    | some publication =>
      obtain ⟨transaction, held, landed, rfl, rfl⟩ := retry_some retried
      obtain ⟨emits, listed⟩ := exact.transaction transaction held
      refine ⟨exact.ordered, exact.taken, fun flying now => ?_, fun delivery delivered => ?_,
        exact.delivering, fun publication listed => ?_⟩
      · cases now
        exact ⟨emits, List.mem_append_right _ (List.mem_singleton_self _)⟩
      · cases held.symm.trans (exact.delivery delivery delivered).1
      · rcases List.mem_append.mp listed with listed | listed
        · exact Nat.lt_succ_of_lt (exact.issued publication listed)
        · cases List.mem_singleton.mp listed
          exact Nat.lt_succ_self _

theorem Exact.adapter_ends (exact : run.Exact) {delivery : BridgeDelivery}
    (delivered : run.delivery = some delivery) (outcome : Except Failure Unit) :
    (run.adapterEnds delivery outcome).Exact := by
  obtain ⟨idle, emits⟩ := exact.delivery delivery delivered
  have none_held : ∀ {transaction}, run.bridge.transaction ≠ some transaction := by simp [idle]
  cases outcome with
  | error failure =>
    exact ⟨exact.ordered, exact.taken, fun _ held => absurd held none_held, nofun, rfl,
      exact.issued⟩
  | ok =>
    cases alive : run.alive with
    | true =>
      simp only [adapterEnds, AccessibilityBridge.endDelivery, alive, if_true]
      exact ⟨emits.ordered, taken_append exact.taken emits, fun _ held => absurd held none_held,
        nofun, rfl, exact.issued⟩
    | false =>
      simp only [adapterEnds, AccessibilityBridge.endDelivery, alive, Bool.false_eq_true, if_false]
      exact ⟨exact.ordered, exact.taken, fun _ held => absurd held none_held, nofun, rfl,
        exact.issued⟩

theorem Exact.step {next : BridgeRun} (exact : run.Exact) (action : BridgeAction)
    (stepped : run.step action = some next) : next.Exact := by
  cases action with
  | adapterEnds outcome =>
    obtain ⟨delivery, delivered, rfl⟩ := Option.map_eq_some_iff.mp stepped
    exact exact.adapter_ends delivered outcome
  | publish tree =>
    obtain ⟨_, same⟩ := Option.ite_none_left_eq_some.mp stepped
    cases same
    exact exact.publish tree
  | clear =>
    obtain ⟨_, same⟩ := Option.ite_none_left_eq_some.mp stepped
    cases same
    exact exact.clear
  | prepare tree =>
    obtain ⟨_, same⟩ := Option.ite_none_left_eq_some.mp stepped
    cases same
    exact exact.prepare tree
  | prepareClear =>
    obtain ⟨_, same⟩ := Option.ite_none_left_eq_some.mp stepped
    cases same
    exact exact.prepare_clear
  | acknowledge generation =>
    obtain ⟨_, same⟩ := Option.ite_none_left_eq_some.mp stepped
    cases same
    exact exact.acknowledge generation
  | reject generation =>
    obtain ⟨_, same⟩ := Option.ite_none_left_eq_some.mp stepped
    cases same
    exact exact.reject generation
  | retry =>
    obtain ⟨_, same⟩ := Option.ite_none_left_eq_some.mp stepped
    cases same
    exact exact.retry
  | resetAcknowledged =>
    obtain ⟨_, same⟩ := Option.ite_none_left_eq_some.mp stepped
    unfold AccessibilityBridge.resetAcknowledged at same
    by_cases delivering : run.bridge.delivering = true
    · rw [if_pos delivering] at same
      cases same
      exact exact
    · rw [if_neg delivering] at same
      cases same
      rw [exact.delivering] at delivering
      refine ⟨⟨List.nodup_nil, trivial⟩, rfl, nofun, fun delivery delivered => ?_,
        exact.delivering, exact.issued⟩
      exact absurd (Option.isSome_iff_exists.mpr ⟨delivery, delivered⟩) delivering
  | destroy =>
    obtain ⟨_, same⟩ := Option.ite_none_left_eq_some.mp stepped
    cases same
    exact ⟨exact.ordered, exact.taken, exact.transaction, exact.delivery, exact.delivering,
      exact.issued⟩

theorem exact_throughout (reached : Reachable bridgeMachine run) : run.Exact := by
  refine reached.invariant BridgeRun.Exact (fun state initial => ?_)
    fun state action next exact _ stepped => exact.step action stepped
  cases initial
  exact ⟨⟨List.nodup_nil, trivial⟩, rfl, nofun, nofun, rfl, nofun⟩

end BridgeRun

/-- At any time: the entries acknowledged are what comes of the batches taken since the last
reset, by acknowledgement or by an adapter that was delivered to. At most one batch is on its
way, and while one is, no other is handed out. Acknowledging or rejecting what is not in
flight changes nothing, and only one generation is in flight. A retry hands out the batch
that was rejected, under a generation greater than all before. -/
theorem bridge_transactions {run : BridgeRun} (reached : Reachable bridgeMachine run) :
    mirrorAfter run.taken.flatten = some (mirrorOf entryKeys run.bridge.differ.entries) ∧
      (run.bridge.differ.entries.map SemanticsEntry.id).Nodup ∧
      (run.bridge.delivering = true → run.bridge.transaction = none ∧
        run.bridge.resetAcknowledged =
          .error (.logicError "AccessibilityBridge delivery is already active")) ∧
      (run.bridge.delivering = true ∨ run.bridge.transaction.isSome →
        (∀ tree, run.bridge.prepare tree =
            .error (.logicError "AccessibilityBridge delivery is already active") ∧
          run.bridge.publish tree =
            .error (.logicError "AccessibilityBridge delivery is already active")) ∧
        run.bridge.prepareClear =
          .error (.logicError "AccessibilityBridge delivery is already active") ∧
        run.bridge.clear =
          .error (.logicError "AccessibilityBridge delivery is already active")) ∧
      (∀ generation, run.bridge.flies generation = false →
        run.bridge.acknowledge generation = (false, run.bridge) ∧
          run.bridge.reject generation = (false, run.bridge)) ∧
      (∀ first second, run.bridge.flies first = true → run.bridge.flies second = true →
        first = second) ∧
      ∀ publication next, run.bridge.retry = .ok (some publication, next) →
        ∃ transaction, run.bridge.transaction = some transaction ∧
          transaction.inFlight = false ∧ publication.update = transaction.update ∧
          transaction.generation < publication.generation ∧
          (∀ earlier ∈ run.issued, earlier.generation < publication.generation) ∧
          next.transaction = some { transaction with
            generation := publication.generation
            inFlight := true } ∧
          next.differ = run.bridge.differ := by
  have exact := BridgeRun.exact_throughout reached
  refine ⟨exact.taken, exact.ordered.nodup, fun delivering => ⟨?_, if_pos delivering⟩,
    fun busy => ⟨fun tree => ⟨if_pos busy, if_pos busy⟩, if_pos busy, if_pos busy⟩,
    fun generation other =>
      ⟨BridgeRun.acknowledge_other other, BridgeRun.reject_other other⟩,
    fun first second flies also => ?_, fun publication next retried => ?_⟩
  · rw [exact.delivering] at delivering
    obtain ⟨delivery, delivered⟩ := Option.isSome_iff_exists.mp delivering
    exact (exact.delivery delivery delivered).1
  · obtain ⟨transaction, held, _, rfl⟩ := BridgeRun.flies_iff.mp flies
    obtain ⟨_, again, _, rfl⟩ := BridgeRun.flies_iff.mp also
    cases held.symm.trans again
    rfl
  · obtain ⟨transaction, held, landed, rfl, rfl⟩ := BridgeRun.retry_some retried
    exact ⟨transaction, held, landed, rfl, exact.issued _ (exact.transaction transaction held).2,
      exact.issued, rfl, rfl⟩

/-- A tree with one text. -/
def labelled (label : String) : SemanticsTree := ⟨[{ id := 1, role := .text, label }]⟩

/-- An adapter that makes a call of its own and then throws; a publication that is rejected,
retried, and acknowledged late as well as in time; and one that is acknowledged after a reset. -/
def unsteadyAdapter : List BridgeAction :=
  [.publish (labelled "a"), .prepare (labelled "b"), .adapterEnds (.error (.runtimeError "lost")),
    .publish (labelled "a"), .adapterEnds (.ok ()), .prepare (labelled "b"), .reject 1, .retry,
    .acknowledge 1, .acknowledge 2, .resetAcknowledged, .prepare (labelled "c"), .reject 3]

theorem bridge_transactions_unsteady : ∃ run, bridgeMachine.run {} unsteadyAdapter = some run ∧
    run.issued.map (·.generation) = [1, 2, 3] ∧
    mirrorAfter run.taken.flatten = some (mirrorOf entryKeys run.bridge.differ.entries) ∧
    run.bridge.acknowledge 3 = (false, run.bridge) ∧
    ∀ publication next, run.bridge.retry = .ok (some publication, next) →
      3 < publication.generation := by
  have shown : (bridgeMachine.run {} unsteadyAdapter).map (fun run =>
      (run.issued.map (·.generation), run.bridge.transaction.map fun transaction =>
        (transaction.generation, transaction.inFlight))) = some ([1, 2, 3], some (3, false)) := by
    decide +kernel
  obtain ⟨run, ran, shown⟩ := Option.map_eq_some_iff.mp shown
  simp only [Prod.mk.injEq] at shown
  obtain ⟨issued, landed⟩ := shown
  obtain ⟨transaction, held, same⟩ := Option.map_eq_some_iff.mp landed
  simp only [Prod.mk.injEq] at same
  obtain ⟨taken, _, _, _, others, _, retries⟩ :=
    bridge_transactions (Reachable.run (.start rfl) ran)
  have resting : run.bridge.flies 3 = false := by
    simp [AccessibilityBridge.flies, held, same.2]
  refine ⟨run, ran, issued, taken, (others 3 resting).1, fun publication next retried => ?_⟩
  obtain ⟨_, again, _, _, later, _⟩ := retries publication next retried
  cases held.symm.trans again
  exact same.1 ▸ later

end Dui
