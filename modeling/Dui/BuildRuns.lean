import Dui.OwnerFrame
import Dui.ReconcileTracking

/-! The calls an application makes on an owner, one after the other, and what they keep.
A flush that is cut short by a throw is the only call that can break the bookkeeping,
so a frame keeps it if its flushes do. -/
namespace Dui
open Effect BuildOwner

variable {α : Type} [DecidableEq α] {pending exempt scopes : List ElementId}

/-- A call on the owner, or a write from outside of any build. -/
inductive Call (α : Type) where
  | render (view : View α)
  | flush
  | layerFrame (renderer : Renderer α)
  | setState (handle : StateHandle) (value : α)
  | setSignal (signal : SignalId) (value : α)
  | createSignal (comparable : Bool) (value : α)
  | destroySignal (signal : SignalId)

/-- Performs a call, with the flush it uses. -/
def performWith (program : Program α) (flush : Building α Unit) (fuel : Nat) :
    Call α → Building α Unit
  | .render view => render program fuel view
  | .flush => flush
  | .layerFrame renderer => layerFrameWith program renderer flush fuel
  | .setState handle value => setState handle value
  | .setSignal signal value => Run.change (·.write (.signal signal) value)
  | .createSignal comparable value => Run.change (·.createSignal comparable value)
  | .destroySignal signal => Run.change (·.dropSource (.signal signal))

def perform (program : Program α) (fuel : Nat) (call : Call α) : Building α Unit :=
  performWith program (flush program fuel) fuel call

/-- Performs calls one after the other, going on after one that throws. What a build does
may change between two calls with what it reads outside of the owner, and so may the order
of a hash set, so that each call has its own application, and its own fuel. -/
def performEach : List (Program α × Nat × Call α) → BuildOwner α → Option (BuildOwner α)
  | [], owner => some owner
  | (program, fuel, call) :: rest, owner =>
    match perform program fuel call owner with
    | none => none
    | some (_, next) => performEach rest next

/-- Every call of a run meets a condition on the owner it is made on. -/
def throughout (meets : Program α → Nat → Call α → BuildOwner α → Bool) :
    List (Program α × Nat × Call α) → BuildOwner α → Bool
  | [], _ => true
  | (program, fuel, call) :: rest, owner =>
    meets program fuel call owner && match perform program fuel call owner with
      | none => true
      | some (_, next) => throughout meets rest next

/-- What every call keeps that meets a condition, every run keeps whose calls do. -/
theorem run_keeps {meets : Program α → Nat → Call α → BuildOwner α → Bool}
    {invariant : BuildOwner α → Prop} (step : ∀ program fuel call owner outcome next,
      invariant owner → meets program fuel call owner = true →
      perform program fuel call owner = some (outcome, next) → invariant next)
    (script : List (Program α × Nat × Call α)) : ∀ owner last, invariant owner →
    throughout meets script owner = true → performEach script owner = some last →
    invariant last := by
  induction script with
  | nil =>
    intro owner last held _ ran
    cases ran
    exact held
  | cons first rest ih =>
    obtain ⟨program, fuel, call⟩ := first
    intro owner last held met ran
    rw [performEach] at ran
    obtain ⟨met, remaining⟩ := Bool.and_eq_true_iff.mp met
    cases performed : perform program fuel call owner with
    | none =>
      rw [performed] at ran
      cases ran
    | some result =>
      obtain ⟨outcome, next⟩ := result
      rw [performed] at ran remaining
      exact ih next last (step program fuel call owner outcome next held met performed) remaining ran

omit [DecidableEq α] in
/-- An owner on which nothing has been called. -/
theorem tracked_initially : ({} : BuildOwner α).Tracked [] [] [] where
  elements _ _ mounted := by cases mounted
  subscribers _ _ live := by cases live
  existing _ live := by cases live
  active _ running := by cases running
  bounded _ running := by cases running

/-! Realizing the items of lazy lists. -/

omit [DecidableEq α] in
theorem has_pending_keeps (requests : ElementId → Option ChildRange) (fuel : Nat) :
    ∀ id, Keeps (Tracked pending exempt scopes)
      (hasPendingLazyChildren requests fuel id : Building α Bool) := by
  induction fuel with
  | zero => exact fun _ => Keeps.diverge
  | succ fuel ih =>
    intro id
    refine Keeps.bind Keeps.read fun found => ?_
    split
    · exact Keeps.pure
    · split
      · exact Keeps.pure
      · exact Keeps.anyOf ih _

theorem build_lazy_items_keeps (program : Program α) (type : TypeToken)
    (items : List (Key × α)) : ∀ views,
    Keeps (Tracked pending exempt scopes) (buildLazyItems program type views items) := by
  induction items with
  | nil => exact fun _ => Keeps.pure
  | cons item items ih => exact fun views => Keeps.bind (run_build_keeps _) fun view => ih _

omit [DecidableEq α] in
theorem realize_items_keeps {reconcile : Reconciler α} (steady : Steady pending scopes reconcile)
    (fuel : Nat) (id : ElementId) (items : List (Key × View α)) : ∀ children,
    Keeps (Tracked pending [] scopes) (realizeItems reconcile fuel id children items) := by
  induction items with
  | nil => exact fun _ => Keeps.pure
  | cons item items ih =>
    intro children
    refine Keeps.bind Keeps.read fun (found, children) =>
      Keeps.bind (steady _ _ _ _) fun (child, outcome) => ?_
    cases outcome with
    | error failure =>
      refine Keeps.bind (unmount_keeps fuel child) fun _ => ?_
      refine Keeps.bind (Keeps.each (unmount_keeps fuel) _) fun _ => ?_
      refine Keeps.bind (Keeps.each (unmount_keeps fuel) _) fun _ => ?_
      refine Keeps.bind (Keeps.each (unmount_keeps fuel) _) fun _ => ?_
      exact Keeps.bind (set_children_keeps id _) fun _ =>
        Keeps.bind (set_kept_alive_keeps id _) fun _ => Keeps.throw
    | ok => exact ih _

omit [DecidableEq α] in
theorem retain_or_unmount_keeps (fuel : Nat) (keys : List Key) (children : List ElementId) :
    ∀ retained, Keeps (Tracked pending exempt scopes)
      (retainOrUnmount fuel keys retained children : Building α (List ElementId)) := by
  induction children with
  | nil => exact fun _ => Keeps.pure
  | cons child children ih =>
    intro retained
    refine Keeps.bind Keeps.read fun key => ?_
    split
    · exact ih _
    · exact Keeps.bind (unmount_keeps fuel child) fun _ => ih _

omit [DecidableEq α] in
theorem enforce_limit_keeps (fuel : Nat) (id : ElementId) :
    Keeps (Tracked pending exempt scopes) (enforceLazyKeepAliveLimit fuel id : Building α Unit) := by
  refine Keeps.bind Keeps.read fun found => ?_
  split
  · exact Keeps.pure
  · split
    · exact Keeps.pure
    · exact Keeps.bind (Keeps.each (unmount_keeps fuel) _) fun _ => set_kept_alive_keeps id _

theorem realize_range_keeps (program : Program α) (fuel : Nat) (id : ElementId) (type : TypeToken)
    (model : LazyModel α) (keptAlive : List ElementId) (range : ChildRange) :
    Keeps (Tracked pending [] scopes) (realizeRange program fuel id type model keptAlive range) := by
  unfold realizeRange
  split
  · exact Keeps.throw
  · refine Keeps.bind (build_lazy_items_keeps program type _ _) fun views => ?_
    refine Keeps.bind Keeps.read fun previous => Keeps.bind (set_children_keeps id _) fun _ => ?_
    refine Keeps.bind (set_kept_alive_keeps id _) fun _ => Keeps.bind
      (realize_items_keeps (reconcile_child_keeps program fuel scopes) fuel id views _)
      fun children => ?_
    refine Keeps.bind (retain_or_unmount_keeps fuel _ _ _) fun retained =>
      Keeps.bind (retain_or_unmount_keeps fuel _ _ _) fun retained => ?_
    exact Keeps.bind (set_children_keeps id _) fun _ => Keeps.bind (set_kept_alive_keeps id _)
      fun _ => enforce_limit_keeps fuel id

theorem realize_lazy_children_keeps (program : Program α)
    (requests : ElementId → Option ChildRange) (fuel : Nat) : ∀ id,
    Keeps (Tracked pending [] scopes) (realizeLazyChildren program requests fuel id) := by
  induction fuel with
  | zero => exact fun _ => Keeps.diverge
  | succ fuel ih =>
    intro id
    have below : ∀ realized, Keeps (Tracked pending [] scopes) (do
        let children ← childrenOf id
        let below ← Run.anyOf (realizeLazyChildren program requests fuel) children
        pure (realized || below)) :=
      fun realized => Keeps.bind Keeps.read fun children =>
        Keeps.bind (Keeps.anyOf ih _) fun _ => Keeps.pure
    rw [realizeLazyChildren]
    refine Keeps.bind Keeps.read fun found => ?_
    split
    · exact Keeps.pure
    · simp only
      split
      · exact Keeps.bind (realize_range_keeps program fuel id _ _ _ _) fun _ => below true
      · exact below false

theorem realize_requests_keeps (program : Program α) (fuel : Nat)
    (requests : ElementId → Option ChildRange) :
    Keeps (Tracked pending [] scopes) (realizeRequests program fuel requests) := by
  refine Keeps.bind (exclusively_keeps (Keeps.bind Keeps.read fun root => ?_)) fun realized => ?_
  · split
    · exact Keeps.pure
    · exact realize_lazy_children_keeps program requests fuel _
  · split
    · exact Keeps.pure
    · exact Keeps.throw

omit [DecidableEq α] in
theorem lay_out_keeps (renderer : Renderer α) (fuel rounds : Nat) :
    Keeps (Tracked pending exempt scopes) (layOut renderer fuel rounds) := by
  refine Keeps.bind Keeps.read fun requests => Keeps.bind Keeps.resume fun requests =>
    Keeps.bind Keeps.read fun root => ?_
  split
  · exact Keeps.pure
  · refine Keeps.bind (has_pending_keeps requests fuel _) fun found => ?_
    split
    · exact Keeps.pure
    · exact Keeps.pure

omit [DecidableEq α] in
theorem composite_keeps (renderer : Renderer α) :
    Keeps (Tracked pending exempt scopes) (compositeFrame renderer) :=
  Keeps.bind Keeps.read fun _ => Keeps.resume

/-! Frames. -/

section Frames
variable {thrown : Prop} (program : Program α) (renderer : Renderer α) {flush : Building α Unit}
variable (fuel : Nat) (kept : KeepsIf thrown (Tracked pending [] scopes) flush)
include kept

/-- A frame keeps the bookkeeping if its flushes do, by induction on its rounds. -/
theorem frame_loop_keeps (rounds : Nat) :
    KeepsIf thrown (Tracked pending [] scopes) (frameLoop program renderer flush fuel rounds) := by
  induction rounds with
  | zero =>
    refine .of_keeps (Keeps.bind (lay_out_keeps renderer fuel 0) fun requests => ?_)
    split
    · exact composite_keeps renderer
    · exact Keeps.throw
  | succ rounds ih =>
    rw [frameLoop]
    refine .bind (.of_keeps (lay_out_keeps renderer fuel (rounds + 1))) fun requests => ?_
    split
    · exact .of_keeps (composite_keeps renderer)
    · exact .bind (.of_keeps (realize_requests_keeps program fuel _)) fun _ => kept.bind fun _ => ih

theorem layer_frame_keeps :
    KeepsIf thrown (Tracked pending [] scopes) (layerFrameWith program renderer flush fuel) := by
  refine .bind (.of_keeps Keeps.read) fun framing => ?_
  split
  · exact .of_keeps Keeps.throw
  · refine .bind (.of_keeps (outside_keeps (fun _ => rfl) (fun _ => rfl) (fun _ => ⟨rfl, rfl⟩)
      (fun _ => rfl) fun _ => rfl)) fun _ => ?_
    refine .ensuring (kept.bind fun _ => frame_loop_keeps program renderer fuel kept _)
      fun owner tracked => ?_
    exact tracked.grows ⟨rfl, rfl, rfl, rfl, fun _ queued => queued, fun other after mounted =>
      ⟨after, mounted, Element.Like.refl after, fun dirty => dirty, Or.inl⟩⟩

/-- A call keeps the bookkeeping if the flush it uses does. -/
theorem perform_with_keeps (call : Call α) :
    KeepsIf thrown (Tracked pending [] scopes) (performWith program flush fuel call) := by
  cases call with
  | render view => exact .of_keeps (render_keeps program fuel view)
  | flush => exact kept
  | layerFrame renderer => exact layer_frame_keeps program renderer fuel kept
  | setState handle value => exact .of_keeps (set_state_keeps handle value)
  | setSignal signal value =>
    exact .of_keeps (Keeps.change fun _ tracked => tracked.write _ value)
  | createSignal comparable value =>
    exact .of_keeps (Keeps.change fun _ tracked => tracked.createSignal comparable value)
  | destroySignal signal =>
    exact .of_keeps (Keeps.change fun _ tracked => tracked.dropSource nofun)

end Frames

/-! Flushes. -/

omit [DecidableEq α] in
theorem exclusively_step {β : Type} {refusal : Failure} (run : Building α β)
    (owner : BuildOwner α) : exclusively refusal run owner =
      if owner.reconciling then some (.error refusal, owner)
      else (run { owner with reconciling := true }).map fun (outcome, next) =>
        (outcome, { next with reconciling := false }) := by
  show (if owner.reconciling then _ else _ : Building α β) owner = _
  split
  · rfl
  · show Run.bind (Run.attempt run) _ { owner with reconciling := true } = _
    unfold Run.bind Run.attempt
    cases run { owner with reconciling := true } with
    | none => rfl
    | some result =>
      obtain ⟨_ | _, _⟩ := result
      · rfl
      · rfl

/-- What was left of the pass of a flush that threw, with the owner it leaves. -/
def leftOver (program : Program α) (fuel : Nat) (owner : BuildOwner α) :
    Option (List ElementId × BuildOwner α) :=
  if owner.reconciling then none else flushCut program fuel fuel { owner with reconciling := true }

omit [DecidableEq α] in
theorem tracked_reconciling {owner : BuildOwner α} (tracked : owner.Tracked pending exempt scopes)
    (reconciling : Bool) :
    ({ owner with reconciling } : BuildOwner α).Tracked pending exempt scopes :=
  tracked.grows ⟨rfl, rfl, rfl, rfl, fun _ queued => queued, fun _ after mounted =>
    ⟨after, mounted, Element.Like.refl after, fun dirty => dirty, Or.inl⟩⟩

/-- A flush that returns leaves nothing dirty, and one that throws leaves what its pass
had not visited, if it had begun one. -/
theorem flush_spec {program : Program α} {fuel : Nat} {owner next : BuildOwner α}
    {outcome : Except Failure Unit} (tracked : owner.Tracked [] [] scopes)
    (ran : flush program fuel owner = some (outcome, next)) :
    (∀ value, outcome = .ok value → next.Tracked [] [] scopes ∧ next.dirty = []) ∧
      ∀ failure, outcome = .error failure → next.Tracked [] [] scopes ∨
        ∃ rest last, leftOver program fuel owner = some (rest, last) ∧
          last.Tracked rest [] scopes ∧ next = { last with reconciling := false } := by
  rw [flush, exclusively_step] at ran
  unfold leftOver
  by_cases busy : owner.reconciling = true
  · rw [if_pos busy] at ran
    cases ran
    exact ⟨nofun, fun _ _ => Or.inl tracked⟩
  · rw [if_neg busy] at ran
    rw [if_neg busy]
    obtain ⟨⟨caught, last⟩, looped, same⟩ := Option.map_eq_some_iff.mp ran
    cases same
    obtain ⟨returned, threw⟩ := flush_loop_spec program fuel fuel _ _ _
      (tracked_reconciling tracked true) looped
    refine ⟨fun value done => ?_, fun failure thrown => ?_⟩
    · obtain ⟨settled, clean⟩ := returned value done
      exact ⟨tracked_reconciling settled false, clean⟩
    · obtain ⟨rest, cut, left⟩ := threw failure thrown
      exact Or.inr ⟨rest, last, cut, left, rfl⟩

end Dui
