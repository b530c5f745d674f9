import Dui.WaylandSurface
import Mathlib.Data.List.Induction

/-! What a Wayland surface owes over whole runs: to the compositor the latest
configure and at most one frame callback, to the application the desired extent
and scale and the frames it asked for. A debt is paid by a submitted commit and
by nothing else. -/
namespace Dui
open Transition WaylandSurfaceState

/-- The commit draws this extent at this scale. -/
def WaylandCommit.Draws (commit : WaylandCommit) (extent : WaylandExtent) (scale : UInt32) :
    Prop :=
  commit.logicalExtent = extent ∧
    commit.scaleNumerator.toUInt64 = effectiveScale commit.useViewporter scale

instance (commit : WaylandCommit) (extent : WaylandExtent) (scale : UInt32) :
    Decidable (commit.Draws extent scale) :=
  inferInstanceAs (Decidable (_ ∧ _))

/-- What is seen of a run from outside. -/
inductive WaylandEvent where
  | configured (serial : UInt32)
  | changed (extent : WaylandExtent) (scale : UInt32)
  | requested
  | submitted (commit : WaylandCommit)
  | done (generation : UInt64)
  deriving DecidableEq, Repr

namespace WaylandEvent

/-- The event neither brings a configure nor acknowledges one. -/
def quiet : WaylandEvent → Bool
  | configured _ => false
  | submitted commit => commit.configureSerial.isNone
  | _ => true

end WaylandEvent

/-- A call that moves the desired extent or scale. -/
def moveEvents (before after : WaylandSurfaceState) : List WaylandEvent :=
  if before.desiredExtent = after.desiredExtent ∧ before.desiredScale = after.desiredScale then []
  else [.changed after.desiredExtent after.desiredScale]

/-- The events of a call that returned. -/
def waylandEvents (before : WaylandSurfaceState) (call : SurfaceCall) (reply : SurfaceReply)
    (after : WaylandSurfaceState) : List WaylandEvent :=
  (match call, reply with
    | .receiveSurfaceConfigure serial, _ => [.configured serial]
    | .requestFrame, _ => [.requested]
    | .submitCommit commit, .flag true => [.submitted commit]
    | .frameDone generation, _ => [.done generation]
    | _, _ => []) ++ moveEvents before after

structure SurfaceRun where
  surface : WaylandSurfaceState
  log : List WaylandEvent := []
  deriving DecidableEq, Repr

/-- Calls in any order; one that throws leaves the surface as it was. -/
def surfaceMachine : Machine SurfaceRun SurfaceCall where
  init run := run.log = [] ∧
    ∃ extent fractional, WaylandSurfaceState.create extent fractional = .ok run.surface
  step run call :=
    match run.surface.perform call with
    | .error _ => some run
    | .ok (reply, surface) =>
      some ⟨surface, run.log ++ waylandEvents run.surface call reply surface⟩

/-- What the events leave owed: the configure no commit has acknowledged, the
extent and scale no commit has drawn, the frame no commit has asked a callback
for, and the callbacks the compositor has not yet answered. -/
structure SurfaceHistory where
  received : Bool := false
  configure : Option UInt32 := none
  change : Option (WaylandExtent × UInt32) := none
  frame : Bool := false
  callbacks : List UInt64 := []
  deriving DecidableEq, Repr

namespace SurfaceHistory

def next (history : SurfaceHistory) : WaylandEvent → SurfaceHistory
  | .configured serial => { history with received := true, configure := some serial }
  | .changed extent scale =>
    { history with change := if history.received then some (extent, scale) else history.change }
  | .requested => { history with frame := true }
  | .submitted commit =>
    { history with
      configure :=
        if commit.configureSerial = history.configure then none else history.configure
      change := history.change.filter fun desired => !commit.Draws desired.1 desired.2
      frame := history.frame && !commit.requestFrameCallback
      callbacks :=
        if commit.requestFrameCallback then commit.generation :: history.callbacks
        else history.callbacks }
  | .done generation => { history with callbacks := history.callbacks.erase generation }

/-- Everything a log leaves owed. -/
def ofLog (log : List WaylandEvent) : SurfaceHistory := log.foldl next {}

theorem of_log_append (first second : List WaylandEvent) :
    ofLog (first ++ second) = second.foldl next (ofLog first) :=
  List.foldl_append

end SurfaceHistory

/-- The serial is that of the latest configure in the log, and no commit since has
acknowledged one. -/
def Unacknowledged (log : List WaylandEvent) (serial : UInt32) : Prop :=
  ∃ earlier between, log = earlier ++ .configured serial :: between ∧
    ∀ event ∈ between, event.quiet = true

/-- Every submitted commit that acknowledges a configure acknowledges the latest
one, and is the first to do so. -/
def AcknowledgedInOrder (log : List WaylandEvent) : Prop :=
  ∀ before commit after serial, log = before ++ .submitted commit :: after →
    commit.configureSerial = some serial → Unacknowledged before serial

/-- The commit is a plan of the surface as it stands. -/
structure WaylandSurfaceState.Plans (surface : WaylandSurfaceState) (commit : WaylandCommit) :
    Prop where
  revision : commit.stateRevision = surface.stateRevision
  configure : commit.configureSerial = surface.pendingConfigure
  draws : commit.Draws surface.desiredExtent surface.desiredScale
  viewporter : commit.useViewporter = surface.fractionalScaleSupported
  generation : commit.generation ≠ 0
  callback : commit.requestFrameCallback = true → surface.frameCallbackGeneration = 0

/-- The surface knows what its history leaves owed. -/
structure WaylandSurfaceState.Owes (surface : WaylandSurfaceState) (history : SurfaceHistory) :
    Prop where
  started : history.received = true → surface.initialCommitStarted = true
  received : history.received = true →
    surface.configured = true ∨ surface.pendingConfigure.isSome = true
  configure : history.configure = surface.pendingConfigure
  unreceived : history.received = false → history.change = none
  change : ∀ extent scale, history.change = some (extent, scale) →
    surface.dirty = true ∧ extent = surface.desiredExtent ∧ scale = surface.desiredScale
  frame : history.frame = surface.frameDemand
  callbacks : history.callbacks =
    if surface.frameCallbackGeneration = 0 then [] else [surface.frameCallbackGeneration]
  generation : surface.nextCommitGeneration ≠ 0
  prepared : ∀ commit, surface.prepared = some commit → surface.Plans commit

section Spec
variable {surface after : WaylandSurfaceState}

/-- A call that returned after advancing the revision. -/
theorem advance_revision_cases {rest : WaylandSurfaceState → WaylandSurfaceState}
    (returned : (do let state ← surface.advanceRevision; Except.ok (rest state)) = .ok after) :
    after = rest { surface with stateRevision := surface.stateRevision + 1, prepared := none } := by
  unfold advanceRevision at returned
  split at returned
  case isTrue => cases returned
  case isFalse => exact (Except.ok.inj returned).symm

/-- A scale that fits 32 bits survives the narrowing. -/
theorem narrowed_scale {scale : UInt64} (fits : ¬ maxUInt32 < scale) :
    scale.toUInt32.toUInt64 = scale := by
  have bound : scale.toNat ≤ 4294967295 := by
    simpa [maxUInt32, UInt64.lt_iff_toNat_lt] using fits
  apply UInt64.toNat_inj.mp
  simp only [UInt32.toNat_toUInt64, UInt64.toNat_toUInt32]
  omega

theorem checked_buffer_dimension_cases (logical : UInt32) (numerator : UInt64) :
    (∃ what, checkedBufferDimension logical numerator = .error (.overflowError what)) ∨
      ∃ dimension, checkedBufferDimension logical numerator = .ok dimension := by
  simp only [checkedBufferDimension]
  split
  · exact .inl ⟨_, rfl⟩
  · exact .inr ⟨_, rfl⟩

/-- Everything `prepare_commit` can do: overflow, plan nothing for one of four
reasons, or plan the surface as it stands. -/
theorem prepare_commit_cases (surface : WaylandSurfaceState) :
    (∃ what, surface.prepareCommit = .error (.overflowError what)) ∨
    (surface.prepareCommit = .ok (none, surface) ∧
      (surface.initialCommitStarted = false ∨
        (surface.configured = false ∧ surface.pendingConfigure = none) ∨
        surface.prepared.isSome = true ∨
        (surface.dirty = false ∧ surface.pendingConfigure = none ∧
          surface.canRequestFrame = false))) ∨
    ∃ commit, surface.prepareCommit = .ok (some commit, { surface with
        prepared := some commit
        nextCommitGeneration := surface.nextCommitGeneration + 1 }) ∧
      surface.nextCommitGeneration ≠ maxCounter ∧
      commit.generation = surface.nextCommitGeneration ∧
      commit.stateRevision = surface.stateRevision ∧
      commit.configureSerial = surface.pendingConfigure ∧
      commit.Draws surface.desiredExtent surface.desiredScale ∧
      commit.useViewporter = surface.fractionalScaleSupported ∧
      commit.requestFrameCallback = surface.canRequestFrame := by
  unfold prepareCommit
  split
  case isTrue early =>
    refine .inr (.inl ⟨rfl, ?_⟩)
    simp only [Bool.not_eq_true, Option.isNone_iff_eq_none] at early
    obtain unstarted | unconfigured | planned := early
    · exact .inl unstarted
    · exact .inr (.inl unconfigured)
    · exact .inr (.inr (.inl planned))
  case isFalse =>
    split
    case isTrue nothing =>
      refine .inr (.inl ⟨rfl, .inr (.inr (.inr ?_))⟩)
      simpa only [Bool.not_eq_true, Option.isNone_iff_eq_none] using nothing
    case isFalse =>
      split
      case isTrue => exact .inl ⟨_, rfl⟩
      case isFalse room =>
        dsimp only
        split
        case isTrue => exact .inl ⟨_, rfl⟩
        case isFalse fits =>
          split
          case isTrue => exact .inl ⟨_, rfl⟩
          case isFalse =>
            obtain ⟨what, failed⟩ | ⟨width, wide⟩ := checked_buffer_dimension_cases
              surface.desiredExtent.width
              (effectiveScale surface.fractionalScaleSupported surface.desiredScale)
            · exact .inl ⟨what, by rw [failed]; rfl⟩
            obtain ⟨what, failed⟩ | ⟨height, high⟩ := checked_buffer_dimension_cases
              surface.desiredExtent.height
              (effectiveScale surface.fractionalScaleSupported surface.desiredScale)
            · exact .inl ⟨what, by rw [wide, failed]; rfl⟩
            rw [wide, high]
            exact .inr (.inr ⟨_, rfl, room, rfl, rfl, rfl, ⟨rfl, narrowed_scale fits⟩, rfl, rfl⟩)

/-- A commit counter that is not at its end does not wrap. -/
theorem next_generation_nonzero {generation : UInt64} (room : generation ≠ maxCounter) :
    generation + 1 ≠ 0 := by
  intro wrapped
  apply room
  have wrapped := congrArg UInt64.toNat wrapped
  simp only [UInt64.toNat_add, UInt64.reduceToNat] at wrapped
  apply UInt64.toNat_inj.mp
  simp only [maxCounter, UInt64.reduceToNat]
  have bound := generation.toNat_lt
  omega

theorem submit_commit_cases {commit : WaylandCommit}
    (submitted : surface.submitCommit commit = (true, after)) :
    surface.prepared = some commit ∧ commit.stateRevision = surface.stateRevision := by
  unfold submitCommit at submitted
  split at submitted
  case isTrue => simp at submitted
  case isFalse accepted =>
    simpa only [not_or, not_not] using accepted

theorem returned_unit {result : Except Failure WaylandSurfaceState} {reply : SurfaceReply}
    (returned : result.map (SurfaceReply.unit, ·) = .ok (reply, after)) :
    .unit = reply ∧ result = .ok after := by
  cases result with
  | error failure => simp [Except.map] at returned
  | ok surface => simpa [Except.map] using returned

end Spec

namespace WaylandSurfaceState.Owes
variable {surface after : WaylandSurfaceState} {history : SurfaceHistory}

/-- The end of a call that may have moved the desired extent or scale: a surface
that owes everything else owes the move as well. -/
private theorem settle (owes : after.Owes { history with change := none })
    (unreceived : history.received = false → history.change = none)
    (dirty : history.received = true → after.dirty = true)
    (kept : ∀ extent scale, history.change = some (extent, scale) →
      extent = surface.desiredExtent ∧ scale = surface.desiredScale) :
    after.Owes ((moveEvents surface after).foldl SurfaceHistory.next history) := by
  unfold moveEvents
  cases received : history.received with
  | false =>
    have unchanged : { history with change := none } = history := by
      simp [← unreceived received]
    rw [unchanged] at owes
    split
    · exact owes
    · have ignored : history.next (.changed after.desiredExtent after.desiredScale) = history := by
        simp only [SurfaceHistory.next, received, Bool.false_eq_true, if_false]
        rw [← received]
      rwa [List.foldl_cons, List.foldl_nil, ignored]
  | true =>
    split
    case isTrue same =>
      refine { owes with unreceived := unreceived, change := ?_ }
      intro extent scale change
      obtain ⟨rfl, rfl⟩ := kept extent scale change
      exact ⟨dirty received, same⟩
    case isFalse =>
      refine { owes with unreceived := ?_, change := ?_ }
      · simp [SurfaceHistory.next, received]
      · intro extent scale change
        simp only [SurfaceHistory.next, List.foldl_cons, List.foldl_nil, received, if_true,
          Option.some.injEq, Prod.mk.injEq] at change
        exact ⟨dirty received, change.1.symm, change.2.symm⟩

theorem begin_initial_commit (owes : surface.Owes history) :
    surface.beginInitialCommit.2.Owes history ∧
      surface.beginInitialCommit.2.desiredExtent = surface.desiredExtent ∧
      surface.beginInitialCommit.2.desiredScale = surface.desiredScale := by
  unfold beginInitialCommit
  split
  · exact ⟨owes, rfl, rfl⟩
  · refine ⟨{ owes with started := fun _ => rfl, prepared := ?_ }, rfl, rfl⟩
    intro commit prepared
    exact { owes.prepared commit prepared with }

theorem receive_toplevel_configure {width height : UInt32} (owes : surface.Owes history)
    (returned : surface.receiveToplevelConfigure width height = .ok after) :
    after.Owes history ∧ after.desiredExtent = surface.desiredExtent ∧
      after.desiredScale = surface.desiredScale := by
  unfold receiveToplevelConfigure at returned
  split at returned
  case isTrue => cases returned
  case isFalse =>
    obtain rfl := Except.ok.inj returned
    refine ⟨{ owes with prepared := ?_ }, rfl, rfl⟩
    intro commit prepared
    exact { owes.prepared commit prepared with }

theorem receive_surface_configure {serial : UInt32} (owes : surface.Owes history)
    (returned : surface.receiveSurfaceConfigure serial = .ok after) :
    after.Owes ((waylandEvents surface (.receiveSurfaceConfigure serial) .unit after).foldl
      SurfaceHistory.next history) := by
  unfold receiveSurfaceConfigure at returned
  split at returned
  case isTrue => cases returned
  case isFalse started =>
    simp only [Bool.not_eq_true, Bool.not_eq_false] at started
    obtain rfl := advance_revision_cases returned
    change Owes _ (((.configured serial :: moveEvents surface _) : List WaylandEvent).foldl
      SurfaceHistory.next history)
    rw [List.foldl_cons]
    apply settle
    · exact { owes with
        started := fun _ => started
        received := fun _ => .inr rfl
        configure := rfl
        unreceived := fun _ => rfl
        change := by simp
        prepared := by simp }
    · simp [SurfaceHistory.next]
    · exact fun _ => rfl
    · intro extent scale change
      exact (owes.change extent scale change).2

theorem set_preferred_scale {numerator : UInt32} (owes : surface.Owes history)
    (returned : surface.setPreferredScale numerator = .ok after) :
    after.Owes ((waylandEvents surface (.setPreferredScale numerator) .unit after).foldl
      SurfaceHistory.next history) := by
  unfold setPreferredScale at returned
  split at returned
  case isTrue => cases returned
  case isFalse =>
    split at returned
    case isTrue =>
      obtain rfl := Except.ok.inj returned
      change Owes _ ((moveEvents surface surface).foldl SurfaceHistory.next history)
      simpa [moveEvents] using owes
    case isFalse =>
      have events : waylandEvents surface (.setPreferredScale numerator) .unit after =
          moveEvents surface after := rfl
      rw [events]
      obtain rfl := advance_revision_cases returned
      refine settle ?_ owes.unreceived ?_ ?_
      · exact { owes with
          unreceived := fun _ => rfl
          change := by simp
          prepared := by simp }
      · intro received
        obtain configured | pending := owes.received received
        · simp [configured]
        · simp [pending]
      · intro extent scale change
        exact (owes.change extent scale change).2

theorem buffer_lost (owes : surface.Owes history) (returned : surface.bufferLost = .ok after) :
    after.Owes history ∧ after.desiredExtent = surface.desiredExtent ∧
      after.desiredScale = surface.desiredScale := by
  unfold bufferLost at returned
  split at returned
  case isTrue =>
    obtain rfl := Except.ok.inj returned
    exact ⟨owes, rfl, rfl⟩
  case isFalse =>
    obtain rfl := advance_revision_cases returned
    refine ⟨{ owes with change := ?_, prepared := by simp }, rfl, rfl⟩
    intro extent scale change
    exact ⟨rfl, (owes.change extent scale change).2⟩

theorem prepare_commit {plan : Option WaylandCommit} (owes : surface.Owes history)
    (returned : surface.prepareCommit = .ok (plan, after)) :
    after.Owes history ∧ after.desiredExtent = surface.desiredExtent ∧
      after.desiredScale = surface.desiredScale := by
  obtain ⟨what, failed⟩ | ⟨nothing, _⟩ | ⟨commit, planned, room, generation, revision, configure,
    draws, viewporter, callback⟩ := prepare_commit_cases surface
  · rw [failed] at returned
    cases returned
  · rw [nothing] at returned
    cases returned
    exact ⟨owes, rfl, rfl⟩
  · rw [planned] at returned
    cases returned
    refine ⟨{ owes with generation := ?_, prepared := ?_ }, rfl, rfl⟩
    · exact next_generation_nonzero room
    · intro other prepared
      obtain rfl := Option.some.inj prepared
      refine ⟨revision, configure, draws, viewporter, generation ▸ owes.generation, ?_⟩
      intro requested
      rw [callback] at requested
      simp only [canRequestFrame, Bool.and_eq_true, beq_iff_eq] at requested
      exact requested.2

theorem submit_commit {commit : WaylandCommit} (owes : surface.Owes history)
    (returned : surface.submitCommit commit = (true, after)) :
    after.Owes (history.next (.submitted commit)) ∧ after.desiredExtent = surface.desiredExtent ∧
      after.desiredScale = surface.desiredScale := by
  obtain ⟨prepared, revision⟩ := submit_commit_cases returned
  obtain plans := owes.prepared commit prepared
  simp only [submitCommit, prepared, revision, ne_eq, not_true_eq_false, or_self, if_false,
    Prod.mk.injEq, true_and] at returned
  subst returned
  refine ⟨⟨owes.started, fun _ => .inl rfl, ?_, ?_, ?_, ?_, ?_, owes.generation, by simp⟩, rfl, rfl⟩
  · simp [SurfaceHistory.next, owes.configure, plans.configure]
  · intro received
    simp [SurfaceHistory.next, owes.unreceived received]
  · intro extent scale change
    obtain ⟨owed, drawn⟩ := Option.filter_eq_some_iff.mp change
    obtain ⟨_, rfl, rfl⟩ := owes.change extent scale owed
    simp [plans.draws] at drawn
  · simp only [SurfaceHistory.next, owes.frame]
    cases commit.requestFrameCallback <;> simp
  · simp only [SurfaceHistory.next, owes.callbacks]
    cases requested : commit.requestFrameCallback with
    | true => simp [plans.callback requested, plans.generation]
    | false => simp

theorem discard_commit (owes : surface.Owes history) (commit : WaylandCommit) :
    (surface.discardCommit commit).2.Owes history ∧
      (surface.discardCommit commit).2.desiredExtent = surface.desiredExtent ∧
      (surface.discardCommit commit).2.desiredScale = surface.desiredScale := by
  unfold discardCommit
  split
  · exact ⟨owes, rfl, rfl⟩
  · refine ⟨{ owes with change := ?_, prepared := by simp }, rfl, rfl⟩
    intro extent scale change
    exact ⟨rfl, (owes.change extent scale change).2⟩

theorem frame_done (owes : surface.Owes history) (generation : UInt64) :
    (surface.frameDone generation).2.Owes (history.next (.done generation)) ∧
      (surface.frameDone generation).2.desiredExtent = surface.desiredExtent ∧
      (surface.frameDone generation).2.desiredScale = surface.desiredScale := by
  unfold frameDone
  split
  case isTrue refused =>
    refine ⟨{ owes with callbacks := ?_ }, rfl, rfl⟩
    simp only [SurfaceHistory.next, owes.callbacks]
    split
    case isTrue => rfl
    case isFalse pending =>
      have other : surface.frameCallbackGeneration ≠ generation := by
        rintro rfl
        simp [pending] at refused
      rw [List.erase_cons_tail (by simpa using other), List.erase_nil]
  case isFalse accepted =>
    simp only [not_or, not_not] at accepted
    obtain ⟨nonzero, rfl⟩ := accepted
    refine ⟨{ owes with callbacks := ?_, prepared := ?_ }, rfl, rfl⟩
    · simp [SurfaceHistory.next, owes.callbacks, nonzero]
    · intro commit prepared
      exact { owes.prepared commit prepared with callback := fun _ => rfl }

theorem request_frame (owes : surface.Owes history) :
    surface.requestFrame.Owes (history.next .requested) := by
  refine { owes with frame := rfl, prepared := ?_ }
  intro commit prepared
  exact { owes.prepared commit prepared with }

/-- Whatever is called, the surface owes what the events of the call leave owed. -/
theorem perform {call : SurfaceCall} {reply : SurfaceReply} (owes : surface.Owes history)
    (returned : surface.perform call = .ok (reply, after)) :
    after.Owes ((waylandEvents surface call reply after).foldl SurfaceHistory.next history) := by
  have still : ∀ (own : List WaylandEvent) {after : WaylandSurfaceState},
      after.Owes (own.foldl SurfaceHistory.next history) →
      after.desiredExtent = surface.desiredExtent ∧ after.desiredScale = surface.desiredScale →
      after.Owes ((own ++ moveEvents surface after).foldl SurfaceHistory.next history) := by
    rintro own after kept ⟨extent, scale⟩
    rw [moveEvents, if_pos ⟨extent.symm, scale.symm⟩, List.append_nil]
    exact kept
  cases call with
  | beginInitialCommit =>
    obtain ⟨rfl, rfl⟩ := Prod.mk.inj (Except.ok.inj returned)
    obtain ⟨kept, unmoved⟩ := owes.begin_initial_commit
    exact still [] kept unmoved
  | receiveToplevelConfigure width height =>
    obtain ⟨rfl, received⟩ := returned_unit returned
    obtain ⟨kept, unmoved⟩ := owes.receive_toplevel_configure received
    exact still [] kept unmoved
  | receiveSurfaceConfigure serial =>
    obtain ⟨rfl, received⟩ := returned_unit returned
    exact owes.receive_surface_configure received
  | setPreferredScale numerator =>
    obtain ⟨rfl, scaled⟩ := returned_unit returned
    exact owes.set_preferred_scale scaled
  | requestFrame =>
    obtain ⟨rfl, rfl⟩ := Prod.mk.inj (Except.ok.inj returned)
    exact still [.requested] owes.request_frame ⟨rfl, rfl⟩
  | bufferLost =>
    obtain ⟨rfl, lost⟩ := returned_unit returned
    obtain ⟨kept, unmoved⟩ := owes.buffer_lost lost
    exact still [] kept unmoved
  | prepareCommit =>
    cases prepared : surface.prepareCommit with
    | error failure => simp [WaylandSurfaceState.perform, prepared, Except.map] at returned
    | ok result =>
      simp only [WaylandSurfaceState.perform, prepared, Except.map, Except.ok.injEq,
        Prod.mk.injEq] at returned
      obtain ⟨rfl, rfl⟩ := returned
      obtain ⟨kept, unmoved⟩ := owes.prepare_commit prepared
      exact still [] kept unmoved
  | submitCommit commit =>
    obtain ⟨rfl, rfl⟩ := Prod.mk.inj (Except.ok.inj returned)
    cases submitted : surface.submitCommit commit with | mk accepted after =>
    cases accepted with
    | true =>
      obtain ⟨kept, unmoved⟩ := owes.submit_commit submitted
      exact still [.submitted commit] kept unmoved
    | false =>
      have unchanged : surface = after := by
        unfold WaylandSurfaceState.submitCommit at submitted
        split at submitted
        · exact (Prod.mk.inj submitted).2
        · simp at submitted
      subst unchanged
      exact still [] owes ⟨rfl, rfl⟩
  | discardCommit commit =>
    obtain ⟨rfl, rfl⟩ := Prod.mk.inj (Except.ok.inj returned)
    obtain ⟨kept, unmoved⟩ := owes.discard_commit commit
    exact still [] kept unmoved
  | frameDone generation =>
    obtain ⟨rfl, rfl⟩ := Prod.mk.inj (Except.ok.inj returned)
    obtain ⟨kept, unmoved⟩ := owes.frame_done generation
    exact still [.done generation] kept unmoved

/-- With nothing prepared, a surface that owes something plans a commit that pays
all of it, or overflows. -/
theorem prepare_pays (owes : surface.Owes history) (received : history.received = true)
    (free : surface.prepared = none)
    (owed : history.configure.isSome = true ∨ history.change.isSome = true ∨
      (history.frame = true ∧ history.callbacks = [])) :
    (∃ what, surface.prepareCommit = .error (.overflowError what)) ∨
    ∃ commit after, surface.prepareCommit = .ok (some commit, after) ∧
      commit.useViewporter = surface.fractionalScaleSupported ∧
      (∀ serial, history.configure = some serial → commit.configureSerial = some serial) ∧
      (∀ extent scale, history.change = some (extent, scale) → commit.Draws extent scale) ∧
      (history.frame = true → history.callbacks = [] → commit.requestFrameCallback = true) := by
  have idle : history.callbacks = [] → surface.frameCallbackGeneration = 0 := by
    intro none
    by_contra pending
    simp [owes.callbacks, pending] at none
  have asks : history.frame = true → history.callbacks = [] → surface.canRequestFrame = true := by
    intro frame none
    simp [canRequestFrame, ← owes.frame, frame, idle none]
  obtain failed | ⟨_, nothing⟩ | ⟨commit, planned, _, _, _, configure, draws, viewporter,
    callback⟩ := prepare_commit_cases surface
  · exact .inl failed
  · obtain unstarted | ⟨unconfigured, unpending⟩ | planned | ⟨clean, unpending, silent⟩ := nothing
    · simp [owes.started received] at unstarted
    · obtain configured | pending := owes.received received
      · simp [configured] at unconfigured
      · simp [unpending] at pending
    · simp [free] at planned
    · obtain configure | change | ⟨frame, none⟩ := owed
      · simp [owes.configure, unpending] at configure
      · obtain ⟨desired, change⟩ := Option.isSome_iff_exists.mp change
        simp [(owes.change desired.1 desired.2 change).1] at clean
      · simp [asks frame none] at silent
  · refine .inr ⟨commit, _, planned, viewporter, ?_, ?_, ?_⟩
    · intro serial owed
      rw [configure, ← owes.configure, owed]
    · intro extent scale owed
      obtain ⟨_, rfl, rfl⟩ := owes.change extent scale owed
      exact draws
    · intro frame none
      rw [callback, asks frame none]

end WaylandSurfaceState.Owes

/-- Every submitted commit carries the configure owed when it was submitted. -/
def CarriesOwed (log : List WaylandEvent) : Prop :=
  ∀ before commit after, log = before ++ .submitted commit :: after →
    commit.configureSerial = (SurfaceHistory.ofLog before).configure

section Log
variable {log events : List WaylandEvent}

theorem CarriesOwed.of_append (carries : CarriesOwed (log ++ events)) : CarriesOwed log := by
  rintro before commit after rfl
  exact carries before commit (after ++ events) (by simp)

theorem CarriesOwed.append (carries : CarriesOwed log)
    (added : ∀ before commit after, events = before ++ .submitted commit :: after →
      commit.configureSerial = (SurfaceHistory.ofLog (log ++ before)).configure) :
    CarriesOwed (log ++ events) := by
  intro before commit after split
  obtain ⟨between, rfl, inside⟩ | ⟨between, inside, rest⟩ := List.append_eq_append_iff.mp split
  · exact added between commit after inside
  · cases between with
    | nil =>
      obtain rfl : log = before := by simpa using inside
      simpa using added [] commit after rest.symm
    | cons event between =>
      obtain ⟨rfl, rfl⟩ := List.cons.inj rest
      exact carries before commit between inside

/-- The configure a log leaves owed is the latest of the log. -/
theorem CarriesOwed.unacknowledged (carries : CarriesOwed log) {serial : UInt32}
    (owed : (SurfaceHistory.ofLog log).configure = some serial) : Unacknowledged log serial := by
  induction log using List.reverseRecOn with
  | nil => cases owed
  | append_singleton log event ih =>
    have kept : event.quiet = true → (SurfaceHistory.ofLog log).configure = some serial →
        Unacknowledged (log ++ [event]) serial := by
      intro quiet owed
      obtain ⟨earlier, between, rfl, silent⟩ := ih carries.of_append owed
      refine ⟨earlier, between ++ [event], by simp, ?_⟩
      simp only [List.forall_mem_append, List.forall_mem_singleton]
      exact ⟨silent, quiet⟩
    rw [SurfaceHistory.of_log_append] at owed
    cases event with
    | configured latest =>
      obtain rfl := Option.some.inj owed
      exact ⟨log, [], rfl, by simp⟩
    | submitted commit =>
      have carried := carries log commit [] rfl
      simp [SurfaceHistory.next, carried] at owed
    | changed extent scale => exact kept rfl owed
    | requested => exact kept rfl owed
    | done generation => exact kept rfl owed

theorem CarriesOwed.in_order (carries : CarriesOwed log) : AcknowledgedInOrder log := by
  rintro before commit after serial rfl acknowledged
  have carried := carries before commit after rfl
  exact carries.of_append.unacknowledged (carried.symm.trans acknowledged)

end Log

/-- A commit is seen submitted only where submitting it was accepted. -/
theorem submitted_event {surface after : WaylandSurfaceState} {call : SurfaceCall}
    {reply : SurfaceReply} {commit : WaylandCommit}
    (seen : .submitted commit ∈ waylandEvents surface call reply after) :
    call = .submitCommit commit ∧ reply = .flag true := by
  have unmoved : .submitted commit ∉ moveEvents surface after := by
    unfold moveEvents
    split <;> simp
  replace seen := (List.mem_append.mp seen).resolve_right unmoved
  cases call with
  | submitCommit other =>
    cases reply with
    | flag accepted =>
      cases accepted with
      | true =>
        obtain rfl := WaylandEvent.submitted.inj (List.mem_singleton.mp seen)
        exact ⟨rfl, rfl⟩
      | false => cases seen
    | unit | plan => cases seen
  | receiveSurfaceConfigure | requestFrame | frameDone => cases List.mem_singleton.mp seen
  | beginInitialCommit | receiveToplevelConfigure | setPreferredScale | bufferLost
  | prepareCommit | discardCommit => cases seen

/-- What holds of every run. -/
structure SurfaceRun.Sound (run : SurfaceRun) : Prop where
  owes : run.surface.Owes (.ofLog run.log)
  carries : CarriesOwed run.log

theorem SurfaceRun.Sound.step {run next : SurfaceRun} {call : SurfaceCall} (sound : run.Sound)
    (stepped : surfaceMachine.step run call = some next) : next.Sound := by
  simp only [surfaceMachine] at stepped
  split at stepped
  case h_1 =>
    obtain rfl := Option.some.inj stepped
    exact sound
  case h_2 reply after returned =>
    obtain rfl := Option.some.inj stepped
    refine ⟨?_, sound.carries.append ?_⟩
    · rw [SurfaceHistory.of_log_append]
      exact sound.owes.perform returned
    · intro before commit rest split
      have seen : .submitted commit ∈ waylandEvents run.surface call reply after := by
        rw [split]
        exact List.mem_append_right _ (List.mem_cons_self ..)
      obtain ⟨rfl, rfl⟩ := submitted_event seen
      obtain ⟨accepted, submitted⟩ := Prod.mk.inj (Except.ok.inj returned)
      have whole : run.surface.submitCommit commit = (true, after) :=
        Prod.ext (SurfaceReply.flag.inj accepted) submitted
      obtain ⟨_, extent, scale⟩ := sound.owes.submit_commit whole
      have plans := sound.owes.prepared commit (submit_commit_cases whole).1
      replace split : .submitted commit :: moveEvents run.surface after =
        before ++ .submitted commit :: rest := split
      rw [moveEvents, if_pos ⟨extent.symm, scale.symm⟩] at split
      obtain rfl : before = [] := by
        cases before with
        | nil => rfl
        | cons event before => simp at split
      rw [List.append_nil, sound.owes.configure, plans.configure]

theorem SurfaceRun.Sound.start {run : SurfaceRun} (initial : surfaceMachine.init run) :
    run.Sound := by
  obtain ⟨empty, extent, fractional, created⟩ := initial
  have fresh : run.surface = { desiredExtent := extent, appliedExtent := extent,
                               fractionalScaleSupported := fractional } := by
    unfold create at created
    split at created
    · cases created
    · exact (Except.ok.inj created).symm
  refine ⟨?_, ?_⟩
  · rw [empty, fresh]
    exact ⟨by simp [SurfaceHistory.ofLog], by simp [SurfaceHistory.ofLog], rfl, fun _ => rfl,
      by simp [SurfaceHistory.ofLog], rfl, rfl, by simp, by simp⟩
  · intro before commit after split
    simp [empty] at split

/-- The protocol over every sequence of calls: at most one callback is outstanding,
only the prepared plan is submitted and it is the latest, configures are
acknowledged in order and once, and what is owed is planned whenever it can be. -/
theorem surface_protocol {run : SurfaceRun} (reached : Reachable surfaceMachine run) :
    (SurfaceHistory.ofLog run.log).callbacks.length ≤ 1 ∧
    (∀ commit after, run.surface.submitCommit commit = (true, after) →
      run.surface.prepared = some commit ∧
      commit.Draws run.surface.desiredExtent run.surface.desiredScale ∧
      commit.useViewporter = run.surface.fractionalScaleSupported ∧
      commit.configureSerial = (SurfaceHistory.ofLog run.log).configure) ∧
    AcknowledgedInOrder run.log ∧
    ((SurfaceHistory.ofLog run.log).received = true → run.surface.prepared = none →
      ((SurfaceHistory.ofLog run.log).configure.isSome = true ∨
        (SurfaceHistory.ofLog run.log).change.isSome = true ∨
        ((SurfaceHistory.ofLog run.log).frame = true ∧
          (SurfaceHistory.ofLog run.log).callbacks = [])) →
      (∃ what, run.surface.prepareCommit = .error (.overflowError what)) ∨
      ∃ commit after, run.surface.prepareCommit = .ok (some commit, after) ∧
        commit.useViewporter = run.surface.fractionalScaleSupported ∧
        (∀ serial, (SurfaceHistory.ofLog run.log).configure = some serial →
          commit.configureSerial = some serial) ∧
        (∀ extent scale, (SurfaceHistory.ofLog run.log).change = some (extent, scale) →
          commit.Draws extent scale) ∧
        ((SurfaceHistory.ofLog run.log).frame = true →
          (SurfaceHistory.ofLog run.log).callbacks = [] →
          commit.requestFrameCallback = true)) := by
  have sound : run.Sound := by
    apply Reaches.invariant SurfaceRun.Sound _ _ reached
    · exact fun _ initial => SurfaceRun.Sound.start initial
    · exact fun _ _ _ sound _ stepped => sound.step stepped
  refine ⟨?_, ?_, sound.carries.in_order, sound.owes.prepare_pays⟩
  · rw [sound.owes.callbacks]
    split <;> simp
  · intro commit after submitted
    obtain ⟨prepared, _⟩ := submit_commit_cases submitted
    have plans := sound.owes.prepared commit prepared
    refine ⟨prepared, plans.draws, plans.viewporter, ?_⟩
    rw [sound.owes.configure, plans.configure]

/-- A fractional surface whose scale changes between the planning and the submission
of its first frame. -/
def rescaledCalls : List SurfaceCall :=
  [.beginInitialCommit, .receiveToplevelConfigure 640 480, .receiveSurfaceConfigure 7,
    .requestFrame, .prepareCommit, .setPreferredScale 180]

def freshRun : SurfaceRun where
  surface := {
    desiredExtent := ⟨320, 240⟩
    appliedExtent := ⟨320, 240⟩
    fractionalScaleSupported := true }

def rescaledRun : SurfaceRun where
  surface := {
    desiredExtent := ⟨640, 480⟩
    appliedExtent := ⟨320, 240⟩
    desiredScale := 180
    pendingConfigure := some 7
    stateRevision := 3
    nextCommitGeneration := 2
    fractionalScaleSupported := true
    initialCommitStarted := true
    dirty := true
    frameDemand := true }
  log := [.configured 7, .changed ⟨640, 480⟩ 120, .requested, .changed ⟨640, 480⟩ 180]

theorem rescaled_run_reached : Reachable surfaceMachine rescaledRun := by
  have initial : surfaceMachine.init freshRun := ⟨rfl, ⟨320, 240⟩, true, rfl⟩
  have ran : surfaceMachine.run freshRun rescaledCalls = some rescaledRun := by decide +kernel
  exact Reachable.run (.start initial) ran

/-- The stale plan is replaced by one that carries the configure, the new scale and
the frame. -/
theorem surface_protocol_rescaled :
    ∃ commit after, rescaledRun.surface.prepareCommit = .ok (some commit, after) ∧
      commit.configureSerial = some 7 ∧ commit.Draws ⟨640, 480⟩ 180 ∧
      commit.requestFrameCallback = true := by
  obtain ⟨_, _, _, pays⟩ := surface_protocol rescaled_run_reached
  obtain ⟨what, failed⟩ | ⟨commit, after, planned, _, configure, draws, asks⟩ :=
    pays (by decide +kernel) (by decide +kernel) (by decide +kernel)
  · have planned : rescaledRun.surface.prepareCommit.isOk = true := by decide +kernel
    rw [failed] at planned
    cases planned
  · exact ⟨commit, after, planned, configure 7 (by decide +kernel),
      draws ⟨640, 480⟩ 180 (by decide +kernel), asks (by decide +kernel) (by decide +kernel)⟩

end Dui
