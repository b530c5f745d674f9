import Mathlib.Algebra.Order.Floor.Semiring
import Mathlib.Algebra.Order.Field.Rat
import Mathlib.Data.Rat.Floor
import Dui.HostState
import Dui.SurfaceProtocol

/-! The arithmetic of a Wayland commit, held against exact numbers: whether a commit
can be planned is decided by rounding up rational sizes, and what is planned passes
both the protocol's check and that of the host's metrics. -/
namespace Dui
open Transition WaylandSurfaceState

/-- A scale of the surface rounded up to whole units where it has no fractional ones. -/
def exactScale (fractionalScaleSupported : Bool) (desired : ℕ) : ℕ :=
  if fractionalScaleSupported then desired else 120 * ⌈(desired : ℚ) / 120⌉₊

/-- A logical dimension at a scale in 120ths, rounded up to whole pixels. -/
def exactDimension (logical scale : ℕ) : ℕ :=
  ⌈(logical : ℚ) * scale / 120⌉₊

namespace WaylandSurfaceState

/-- The exact scale the surface is to be drawn at. -/
def exactScale (surface : WaylandSurfaceState) : ℕ :=
  Dui.exactScale surface.fractionalScaleSupported surface.desiredScale.toNat

/-- There is a commit to prepare: the surface has been configured, no plan is
outstanding, and something is new. -/
def HasCommit (surface : WaylandSurfaceState) : Prop :=
  surface.initialCommitStarted = true ∧
    (surface.configured = true ∨ surface.pendingConfigure.isSome = true) ∧
    surface.prepared = none ∧
    (surface.dirty = true ∨ surface.pendingConfigure.isSome = true ∨
      surface.canRequestFrame = true)

/-- The exact plan does not fit the numbers of the protocol. -/
def Overflows (surface : WaylandSurfaceState) : Prop :=
  2 ^ 31 - 1 < exactDimension surface.desiredExtent.width.toNat surface.exactScale ∨
    2 ^ 31 - 1 < exactDimension surface.desiredExtent.height.toNat surface.exactScale ∨
    2 ^ 32 - 1 < surface.exactScale

/-- Every 64-bit result on the way to a commit is the exact one. -/
structure NeverWraps (surface : WaylandSurfaceState) : Prop where
  raised : (surface.desiredScale.toUInt64 + scaleDenominator - 1).toNat =
    surface.desiredScale.toNat + 119
  scale : (effectiveScale surface.fractionalScaleSupported surface.desiredScale).toNat =
    surface.exactScale
  integer : (effectiveScale surface.fractionalScaleSupported surface.desiredScale +
    scaleDenominator - 1).toNat = surface.exactScale + 119
  scaled : ∀ logical ∈ [surface.desiredExtent.width, surface.desiredExtent.height],
    (logical.toUInt64 *
      effectiveScale surface.fractionalScaleSupported surface.desiredScale).toNat =
      logical.toNat * surface.exactScale
  rounded : ∀ logical ∈ [surface.desiredExtent.width, surface.desiredExtent.height],
    (logical.toUInt64 *
      effectiveScale surface.fractionalScaleSupported surface.desiredScale +
      scaleDenominator - 1).toNat = logical.toNat * surface.exactScale + 119
  generation : surface.nextCommitGeneration ≠ maxCounter →
    (surface.nextCommitGeneration + 1).toNat = surface.nextCommitGeneration.toNat + 1

/-- What the calls leave true of the surface's numbers. -/
structure InRange (surface : WaylandSurfaceState) : Prop where
  desired : surface.desiredExtent.valid = true
  stagedWidth : surface.stagedWidth ≤ WaylandExtent.maximum
  stagedHeight : surface.stagedHeight ≤ WaylandExtent.maximum
  scale : surface.desiredScale ≠ 0
  revision : surface.stateRevision ≠ 0
  generation : surface.nextCommitGeneration ≠ 0

/-- The commit is the exact plan of the surface. -/
structure PlansExactly (surface : WaylandSurfaceState) (commit : WaylandCommit) : Prop where
  generation : commit.generation = surface.nextCommitGeneration
  revision : commit.stateRevision = surface.stateRevision
  logical : commit.logicalExtent = surface.desiredExtent
  width : commit.bufferExtent.width.toNat =
    exactDimension surface.desiredExtent.width.toNat surface.exactScale
  height : commit.bufferExtent.height.toNat =
    exactDimension surface.desiredExtent.height.toNat surface.exactScale
  scale : commit.scaleNumerator.toNat = surface.exactScale
  viewporter : commit.useViewporter = surface.fractionalScaleSupported
  buffer : commit.bufferScale.toNat =
    if surface.fractionalScaleSupported then 1 else surface.exactScale / 120

end WaylandSurfaceState

/-- The metrics that `present` passes to the host driver once it has submitted the
plan; the driver numbers them. -/
def WaylandCommit.metrics (plan : WaylandCommit) (generation : ℕ) : WindowMetrics where
  logicalSize := ⟨plan.logicalExtent.width.toNat, plan.logicalExtent.height.toNat⟩
  physicalWidth := plan.bufferExtent.width.toNat
  physicalHeight := plan.bufferExtent.height.toNat
  devicePixelRatio := plan.scaleNumerator.toNat / 120
  generation := generation

/-- The metrics call of `present`. -/
def WaylandCommit.setMetrics (plan : WaylandCommit) (window : HostWindowState) :
    HostWindowState.SetMetricsOutcome × HostWindowState :=
  window.setMetricsLocked ⟨plan.logicalExtent.width.toNat, plan.logicalExtent.height.toNat⟩
    plan.bufferExtent.width.toNat plan.bufferExtent.height.toNat (plan.scaleNumerator.toNat / 120)

section Guards
variable {surface : WaylandSurfaceState}

/-- The two early returns of `prepare_commit` are taken when there is no commit. -/
theorem has_commit_iff : surface.HasCommit ↔
    ¬ (¬ surface.initialCommitStarted ∨
      (¬ surface.configured ∧ surface.pendingConfigure.isNone) ∨ surface.prepared.isSome) ∧
    ¬ (¬ surface.dirty ∧ surface.pendingConfigure.isNone ∧ ¬ surface.canRequestFrame) := by
  rw [WaylandSurfaceState.HasCommit, ← Option.not_isSome_iff_eq_none]
  cases surface.initialCommitStarted <;> cases surface.configured <;>
    cases surface.pendingConfigure <;> cases surface.prepared <;> cases surface.dirty <;> simp

/-- Without a commit to prepare nothing is planned and nothing changes. -/
theorem prepare_commit_idle (idle : ¬ surface.HasCommit) :
    surface.prepareCommit = .ok (none, surface) := by
  rw [has_commit_iff, not_and_or, not_not, not_not] at idle
  unfold prepareCommit
  split
  · rfl
  · rename_i started
    rw [if_pos (idle.resolve_left started)]

end Guards

section Rounding

/-- Rounding up to whole units by adding one less than a unit. -/
theorem rounded_up (amount : ℕ) : ⌈(amount : ℚ) / 120⌉₊ = (amount + 119) / 120 := by
  apply eq_of_forall_ge_iff
  intro bound
  rw [Nat.ceil_le, div_le_iff₀ (by norm_num)]
  have exact : (amount : ℚ) ≤ bound * 120 ↔ amount ≤ bound * 120 := by
    exact_mod_cast Iff.rfl
  rw [exact]
  omega

theorem exact_dimension_eq (logical scale : ℕ) :
    exactDimension logical scale = (logical * scale + 119) / 120 := by
  rw [exactDimension, ← Nat.cast_mul, rounded_up]

/-- A dimension rounded up is less than one pixel too large. -/
theorem exact_dimension_close (logical scale : ℕ) :
    |(exactDimension logical scale : ℚ) - logical * (scale / 120)| ≤ 1 := by
  have above := Nat.le_ceil ((logical : ℚ) * scale / 120)
  have below := Nat.ceil_lt_add_one (show 0 ≤ (logical : ℚ) * scale / 120 by positivity)
  rw [exactDimension, ← mul_div_assoc, abs_of_nonneg (by linarith)]
  linarith

theorem exact_dimension_pos {logical scale : ℕ} (wide : 0 < logical) (drawn : 0 < scale) :
    0 < exactDimension logical scale := by
  have positive := Nat.mul_pos wide drawn
  rw [exact_dimension_eq]
  omega

theorem exact_scale_pos {fractional : Bool} {desired : ℕ} (some : 0 < desired) :
    0 < exactScale fractional desired := by
  unfold exactScale
  split
  · exact some
  · rw [rounded_up]
    omega

theorem exact_scale_whole (desired : ℕ) : exactScale false desired % 120 = 0 :=
  Nat.mul_mod_right 120 _

end Rounding

section Words

theorem maximum_to_nat : WaylandExtent.maximum.toNat = 2 ^ 31 - 1 := rfl

theorem extent_valid_iff {extent : WaylandExtent} : extent.valid = true ↔
    (0 < extent.width.toNat ∧ extent.width.toNat ≤ 2 ^ 31 - 1) ∧
      0 < extent.height.toNat ∧ extent.height.toNat ≤ 2 ^ 31 - 1 := by
  have positive (word : UInt32) : word ≠ 0 ↔ 0 < word.toNat := by
    rw [Nat.pos_iff_ne_zero, Ne, Ne, ← UInt32.toNat_inj, UInt32.toNat_zero]
  simp only [WaylandExtent.valid, Bool.and_eq_true, decide_eq_true_eq, positive,
    UInt32.le_iff_toNat_le, maximum_to_nat]
  constructor
  · rintro ⟨⟨⟨width, height⟩, wide⟩, high⟩
    exact ⟨⟨width, wide⟩, height, high⟩
  · rintro ⟨⟨width, wide⟩, height, high⟩
    exact ⟨⟨⟨width, height⟩, wide⟩, high⟩

theorem exact_scale_le (fractional : Bool) (desired : UInt32) :
    exactScale fractional desired.toNat ≤ 2 ^ 32 + 118 := by
  have small := desired.toNat_lt
  unfold exactScale
  split
  · omega
  · rw [rounded_up]
    omega

theorem raised_scale (desired : UInt32) :
    (desired.toUInt64 + scaleDenominator - 1).toNat = desired.toNat + 119 := by
  have small := desired.toNat_lt
  simp [scaleDenominator, UInt64.toNat_add, UInt64.toNat_sub]
  omega

/-- The effective scale is computed exactly. -/
theorem effective_scale_exact (fractional : Bool) (desired : UInt32) :
    (effectiveScale fractional desired).toNat = exactScale fractional desired.toNat := by
  have small := desired.toNat_lt
  cases fractional with
  | true => simp [effectiveScale, exactScale]
  | false =>
    simp only [effectiveScale, exactScale, Bool.false_eq_true, if_false, UInt64.toNat_mul,
      UInt64.toNat_div, raised_scale, rounded_up]
    simp only [scaleDenominator, UInt64.reduceToNat]
    omega

/-- A dimension of the protocol at a scale that fits is scaled exactly. -/
theorem scaled_exact {logical : UInt32} {scale : UInt64}
    (narrow : logical.toNat ≤ 2 ^ 31 - 1) (fits : scale.toNat ≤ 2 ^ 32 + 118) :
    (logical.toUInt64 * scale).toNat = logical.toNat * scale.toNat ∧
      (logical.toUInt64 * scale + scaleDenominator - 1).toNat =
        logical.toNat * scale.toNat + 119 := by
  have bounded : logical.toNat * scale.toNat ≤ (2 ^ 31 - 1) * (2 ^ 32 + 118) :=
    Nat.mul_le_mul narrow fits
  have product : (logical.toUInt64 * scale).toNat = logical.toNat * scale.toNat := by
    rw [UInt64.toNat_mul, UInt32.toNat_toUInt64]
    omega
  refine ⟨product, ?_⟩
  simp only [UInt64.toNat_sub, UInt64.toNat_add, product, scaleDenominator, UInt64.reduceToNat]
  omega

/-- A buffer dimension is the exact one, or it is none of the protocol. -/
theorem checked_buffer_dimension_exact {logical : UInt32} {scale : UInt64}
    (wide : 0 < logical.toNat) (narrow : logical.toNat ≤ 2 ^ 31 - 1)
    (drawn : 0 < scale.toNat) (fits : scale.toNat ≤ 2 ^ 32 + 118) :
    (2 ^ 31 - 1 < exactDimension logical.toNat scale.toNat ∧
      checkedBufferDimension logical scale =
        .error (.overflowError "Wayland buffer extent overflow")) ∨
    (exactDimension logical.toNat scale.toNat ≤ 2 ^ 31 - 1 ∧
      ∃ dimension, checkedBufferDimension logical scale = .ok dimension ∧
        dimension.toNat = exactDimension logical.toNat scale.toNat) := by
  have exact : ((logical.toUInt64 * scale + scaleDenominator - 1) / scaleDenominator).toNat =
      exactDimension logical.toNat scale.toNat := by
    rw [UInt64.toNat_div, (scaled_exact narrow fits).2, exact_dimension_eq]
    rfl
  have positive := exact_dimension_pos wide drawn
  simp only [checkedBufferDimension, UInt64.lt_iff_toNat_lt, ← UInt64.toNat_inj, exact,
    UInt32.toNat_toUInt64, maximum_to_nat, UInt64.toNat_zero]
  by_cases room : exactDimension logical.toNat scale.toNat ≤ 2 ^ 31 - 1
  · right
    rw [if_neg (by omega)]
    refine ⟨room, _, rfl, ?_⟩
    rw [UInt64.toNat_toUInt32, exact]
    omega
  · left
    rw [if_pos (by omega)]
    exact ⟨by omega, rfl⟩

end Words

namespace WaylandSurfaceState.InRange
variable {surface after : WaylandSurfaceState}

theorem create {extent : WaylandExtent} {fractional : Bool}
    (created : WaylandSurfaceState.create extent fractional = .ok surface) : surface.InRange := by
  unfold WaylandSurfaceState.create at created
  split at created
  case isTrue => cases created
  case isFalse valid =>
    obtain rfl := Except.ok.inj created
    exact ⟨by simpa using valid, UInt32.zero_le, UInt32.zero_le, ne_of_beq_false rfl,
      ne_of_beq_false rfl, ne_of_beq_false rfl⟩

/-- A counter short of its maximum is raised to no zero. -/
theorem raised {counter : UInt64} (room : counter ≠ maxCounter) : counter + 1 ≠ 0 := by
  rw [Ne, ← UInt64.toNat_inj] at room ⊢
  have small := counter.toNat_lt
  have last : maxCounter.toNat = 2 ^ 64 - 1 := rfl
  rw [UInt64.toNat_add, UInt64.toNat_one, UInt64.toNat_zero]
  omega

theorem advance_revision (range : surface.InRange)
    (returned : surface.advanceRevision = .ok after) : after.InRange := by
  unfold WaylandSurfaceState.advanceRevision at returned
  split at returned
  case isTrue => cases returned
  case isFalse room =>
    obtain rfl := Except.ok.inj returned
    exact { range with revision := raised room }

/-- Staged extents that are not zero replace the desired ones. -/
theorem receive_surface_configure {serial : UInt32} (range : surface.InRange)
    (returned : surface.receiveSurfaceConfigure serial = .ok after) : after.InRange := by
  unfold WaylandSurfaceState.receiveSurfaceConfigure at returned
  split at returned
  case isTrue => cases returned
  case isFalse =>
    obtain ⟨advanced, revised, rest⟩ := bind_ok_iff.mp returned
    obtain rfl := Except.ok.inj rest
    have kept := range.advance_revision revised
    refine { kept with
      desired := ?_
      stagedWidth := UInt32.zero_le
      stagedHeight := UInt32.zero_le }
    have desired := kept.desired
    simp only [WaylandExtent.valid, Bool.and_eq_true, decide_eq_true_eq] at desired ⊢
    obtain ⟨⟨⟨wide, high⟩, narrow⟩, low⟩ := desired
    refine ⟨⟨⟨?_, ?_⟩, ?_⟩, ?_⟩
    · split <;> assumption
    · split <;> assumption
    · split
      · exact kept.stagedWidth
      · exact narrow
    · split
      · exact kept.stagedHeight
      · exact low

theorem perform {call : SurfaceCall} {reply : SurfaceReply} (range : surface.InRange)
    (returned : surface.perform call = .ok (reply, after)) : after.InRange := by
  cases call with
  | beginInitialCommit =>
    obtain ⟨_, rfl⟩ := Prod.mk.inj (Except.ok.inj returned)
    unfold beginInitialCommit
    split
    · exact range
    · exact { range with }
  | receiveToplevelConfigure width height =>
    obtain ⟨_, received⟩ := returned_unit returned
    unfold receiveToplevelConfigure at received
    split at received
    case isTrue => cases received
    case isFalse fits =>
      obtain rfl := Except.ok.inj received
      rw [not_or, UInt32.not_lt, UInt32.not_lt] at fits
      exact { range with stagedWidth := fits.1, stagedHeight := fits.2 }
  | receiveSurfaceConfigure serial =>
    exact range.receive_surface_configure (returned_unit returned).2
  | setPreferredScale numerator =>
    obtain ⟨_, scaled⟩ := returned_unit returned
    unfold setPreferredScale at scaled
    split at scaled
    case isTrue => cases scaled
    case isFalse some =>
      split at scaled
      case isTrue =>
        obtain rfl := Except.ok.inj scaled
        exact range
      case isFalse =>
        obtain ⟨advanced, revised, rest⟩ := bind_ok_iff.mp scaled
        obtain rfl := Except.ok.inj rest
        exact { range.advance_revision revised with scale := some }
  | requestFrame =>
    obtain ⟨_, rfl⟩ := Prod.mk.inj (Except.ok.inj returned)
    exact { range with }
  | bufferLost =>
    obtain ⟨_, lost⟩ := returned_unit returned
    unfold bufferLost at lost
    split at lost
    case isTrue =>
      obtain rfl := Except.ok.inj lost
      exact range
    case isFalse =>
      obtain ⟨advanced, revised, rest⟩ := bind_ok_iff.mp lost
      obtain rfl := Except.ok.inj rest
      exact { range.advance_revision revised with }
  | prepareCommit =>
    obtain ⟨what, failed⟩ | ⟨nothing, _⟩ | ⟨commit, planned, room, _⟩ :=
      prepare_commit_cases surface
    · simp [WaylandSurfaceState.perform, failed, Except.map] at returned
    · simp only [WaylandSurfaceState.perform, nothing, Except.map, Except.ok.injEq,
        Prod.mk.injEq] at returned
      obtain ⟨_, rfl⟩ := returned
      exact range
    · simp only [WaylandSurfaceState.perform, planned, Except.map, Except.ok.injEq,
        Prod.mk.injEq] at returned
      obtain ⟨_, rfl⟩ := returned
      exact { range with generation := raised room }
  | submitCommit commit =>
    obtain ⟨_, rfl⟩ := Prod.mk.inj (Except.ok.inj returned)
    unfold submitCommit
    split
    · exact range
    · exact { range with }
  | discardCommit commit =>
    obtain ⟨_, rfl⟩ := Prod.mk.inj (Except.ok.inj returned)
    unfold discardCommit
    split
    · exact range
    · exact { range with }
  | frameDone generation =>
    obtain ⟨_, rfl⟩ := Prod.mk.inj (Except.ok.inj returned)
    unfold frameDone
    split
    · exact range
    · exact { range with }

theorem reached {run : SurfaceRun} (reached : Reachable surfaceMachine run) :
    run.surface.InRange := by
  apply Reaches.invariant (fun run => run.surface.InRange) _ _ reached
  · rintro run ⟨_, extent, fractional, created⟩
    exact create created
  · intro run call next range _ stepped
    simp only [surfaceMachine] at stepped
    split at stepped
    case h_1 =>
      obtain rfl := Option.some.inj stepped
      exact range
    case h_2 reply after returned =>
      obtain rfl := Option.some.inj stepped
      exact range.perform returned

section Plan
variable (range : surface.InRange)
include range

theorem scale_pos : 0 < surface.exactScale := by
  apply exact_scale_pos
  have some := range.scale
  rw [Ne, ← UInt32.toNat_inj, UInt32.toNat_zero] at some
  omega

theorem never_wraps : surface.NeverWraps := by
  obtain ⟨⟨_, narrow⟩, _, low⟩ := extent_valid_iff.mp range.desired
  have scale := effective_scale_exact surface.fractionalScaleSupported surface.desiredScale
  have fits := exact_scale_le surface.fractionalScaleSupported surface.desiredScale
  rw [← scale] at fits
  have small : ∀ logical ∈ [surface.desiredExtent.width, surface.desiredExtent.height],
      logical.toNat ≤ 2 ^ 31 - 1 := by
    intro logical side
    simp only [List.mem_cons, List.not_mem_nil, or_false] at side
    obtain rfl | rfl := side
    · exact narrow
    · exact low
  refine ⟨raised_scale _, scale, ?_, ?_, ?_, ?_⟩
  · rw [WaylandSurfaceState.exactScale, ← scale]
    simp only [UInt64.toNat_sub, UInt64.toNat_add, scaleDenominator, UInt64.reduceToNat]
    omega
  · intro logical side
    rw [(scaled_exact (small logical side) fits).1, scale, WaylandSurfaceState.exactScale]
  · intro logical side
    rw [(scaled_exact (small logical side) fits).2, scale, WaylandSurfaceState.exactScale]
  · intro room
    have small := surface.nextCommitGeneration.toNat_lt
    rw [Ne, ← UInt64.toNat_inj] at room
    have last : maxCounter.toNat = 2 ^ 64 - 1 := rfl
    rw [UInt64.toNat_add, UInt64.toNat_one]
    omega

/-- With a commit to prepare, the plan is the exact one unless that overflows. -/
theorem prepare_commit_exact (has : surface.HasCommit) :
    ((surface.nextCommitGeneration = maxCounter ∨ surface.Overflows) ∧
      ∃ what, surface.prepareCommit = .error (.overflowError what)) ∨
    (¬ (surface.nextCommitGeneration = maxCounter ∨ surface.Overflows) ∧
      ∃ commit after, surface.prepareCommit = .ok (some commit, after) ∧
        surface.PlansExactly commit) := by
  obtain ⟨⟨wide, narrow⟩, high, low⟩ := extent_valid_iff.mp range.desired
  have drawn := range.scale_pos
  have fits := exact_scale_le surface.fractionalScaleSupported surface.desiredScale
  have scale := effective_scale_exact surface.fractionalScaleSupported surface.desiredScale
  have integer := range.never_wraps.integer
  change _ = Dui.exactScale _ _ + 119 at integer
  have limit : maxUInt32.toNat = 2 ^ 32 - 1 := rfl
  obtain ⟨started, fresh⟩ := has_commit_iff.mp has
  unfold prepareCommit Overflows
  rw [if_neg started, if_neg fresh]
  unfold WaylandSurfaceState.exactScale at drawn ⊢
  rw [← scale] at drawn fits integer ⊢
  by_cases exhausted : surface.nextCommitGeneration = maxCounter
  · rw [if_pos exhausted]
    exact .inl ⟨.inl exhausted, _, rfl⟩
  rw [if_neg exhausted]
  dsimp only
  generalize planned : effectiveScale surface.fractionalScaleSupported surface.desiredScale =
    effective at *
  by_cases large : 2 ^ 32 - 1 < effective.toNat
  · rw [if_pos (by rwa [UInt64.lt_iff_toNat_lt, limit])]
    exact .inl ⟨.inr (.inr (.inr large)), _, rfl⟩
  have whole : ((effective + scaleDenominator - 1) / scaleDenominator).toNat =
      (effective.toNat + 119) / 120 := by
    rw [UInt64.toNat_div, integer]
    rfl
  rw [if_neg (by rwa [UInt64.lt_iff_toNat_lt, limit]),
    if_neg (by rw [UInt64.lt_iff_toNat_lt, whole, limit]; omega)]
  obtain ⟨wider, failed⟩ | ⟨within, width, across, exactWidth⟩ :=
    checked_buffer_dimension_exact wide narrow drawn fits
  · rw [failed]
    exact .inl ⟨.inr (.inl wider), _, rfl⟩
  obtain ⟨higher, failed⟩ | ⟨below, height, down, exactHeight⟩ :=
    checked_buffer_dimension_exact high low drawn fits
  · rw [across, failed]
    exact .inl ⟨.inr (.inr (.inl higher)), _, rfl⟩
  right
  rw [across, down]
  refine ⟨?_, _, _, rfl, rfl, rfl, rfl, ?_, ?_, ?_, rfl, ?_⟩
  · rintro (last | wider | higher | larger)
    · exact exhausted last
    · omega
    · omega
    · exact large larger
  · rwa [WaylandSurfaceState.exactScale, ← scale]
  · rwa [WaylandSurfaceState.exactScale, ← scale]
  · change effective.toUInt32.toNat = Dui.exactScale _ _
    rw [UInt64.toNat_toUInt32, ← scale]
    omega
  · change (if surface.fractionalScaleSupported then (1 : UInt32) else
      ((effective + scaleDenominator - 1) / scaleDenominator).toUInt32).toNat = _
    rw [WaylandSurfaceState.exactScale, ← scale]
    cases fractional : surface.fractionalScaleSupported with
    | true => rfl
    | false =>
      have divides := exact_scale_whole surface.desiredScale.toNat
      rw [fractional] at scale
      rw [← scale] at divides
      simp only [Bool.false_eq_true, if_false]
      rw [UInt64.toNat_toUInt32, whole]
      omega

end Plan

section Valid
variable {commit : WaylandCommit} (range : surface.InRange)
  (plans : surface.PlansExactly commit)
include range plans

/-- The exact plan's metrics pass the check of the host. -/
theorem metrics_valid {generation : ℕ} (numbered : generation ≠ 0) :
    (commit.metrics generation).valid = true := by
  obtain ⟨⟨wide, _⟩, high, _⟩ := extent_valid_iff.mp range.desired
  have drawn := range.scale_pos
  have across := exact_dimension_pos wide drawn
  have down := exact_dimension_pos high drawn
  have closeWidth := exact_dimension_close surface.desiredExtent.width.toNat surface.exactScale
  have closeHeight := exact_dimension_close surface.desiredExtent.height.toNat surface.exactScale
  have ratio : (0 : ℚ) < surface.exactScale / 120 := by positivity
  simp only [WindowMetrics.valid, WaylandCommit.metrics, plans.logical, plans.width, plans.height,
    plans.scale, Bool.and_eq_true, decide_eq_true_eq]
  refine ⟨⟨⟨⟨⟨⟨?_, ?_⟩, ratio⟩, numbered⟩, ?_⟩, closeWidth⟩, closeHeight⟩
  · exact Nat.cast_nonneg _
  · exact Nat.cast_nonneg _
  · rw [if_neg, decide_eq_true_eq]
    · exact ⟨across.ne', down.ne'⟩
    · rw [not_or, Nat.cast_eq_zero, Nat.cast_eq_zero]
      exact ⟨wide.ne', high.ne'⟩

variable (fits : ¬ surface.Overflows)
include fits

theorem buffer_extent_valid : commit.bufferExtent.valid = true := by
  obtain ⟨⟨wide, _⟩, high, _⟩ := extent_valid_iff.mp range.desired
  unfold Overflows at fits
  rw [extent_valid_iff, plans.width, plans.height]
  exact ⟨⟨exact_dimension_pos wide range.scale_pos, by omega⟩,
    exact_dimension_pos high range.scale_pos, by omega⟩

/-- The exact plan passes the check of the protocol. -/
theorem commit_valid : commit.valid = true := by
  obtain ⟨⟨_, narrow⟩, _, low⟩ := extent_valid_iff.mp range.desired
  have drawn := range.scale_pos
  have buffer := range.buffer_extent_valid plans fits
  have small : commit.scaleNumerator.toUInt64.toNat ≤ 2 ^ 32 + 118 := by
    rw [UInt32.toNat_toUInt64, plans.scale]
    exact exact_scale_le _ _
  have rescaled {logical : UInt32} (side : logical.toNat ≤ 2 ^ 31 - 1) :
      ((logical.toUInt64 * commit.scaleNumerator.toUInt64 + scaleDenominator - 1) /
        scaleDenominator).toNat = exactDimension logical.toNat surface.exactScale := by
    rw [UInt64.toNat_div, (scaled_exact side small).2, exact_dimension_eq, UInt32.toNat_toUInt64,
      plans.scale]
    rfl
  have positive : commit.bufferScale.toNat ≠ 0 ∧ commit.bufferScale.toNat ≤ 2 ^ 31 - 1 := by
    rw [plans.buffer]
    unfold Overflows at fits
    split
    · omega
    · rename_i whole
      have divides := exact_scale_whole surface.desiredScale.toNat
      unfold WaylandSurfaceState.exactScale at drawn fits ⊢
      rw [Bool.not_eq_true] at whole
      rw [whole] at drawn fits ⊢
      omega
  unfold WaylandCommit.valid
  dsimp only
  rw [if_neg, if_neg]
  · split
    · rename_i viewporter
      rw [decide_eq_true_eq, ← UInt32.toNat_inj, plans.buffer, ← plans.viewporter,
        if_pos viewporter]
      rfl
    · rename_i whole
      have divides := exact_scale_whole surface.desiredScale.toNat
      rw [plans.viewporter, Bool.not_eq_true] at whole
      have buffered := plans.buffer
      have scaled := plans.scale
      unfold WaylandSurfaceState.exactScale at buffered scaled
      rw [whole] at buffered scaled
      rw [decide_eq_true_eq, ← UInt64.toNat_inj, ← UInt64.toNat_inj, UInt64.toNat_mod,
        UInt64.toNat_div, UInt32.toNat_toUInt64, UInt32.toNat_toUInt64, buffered, scaled]
      exact ⟨divides, rfl⟩
  · rw [not_or, not_not, not_not, plans.logical, ← UInt64.toNat_inj, ← UInt64.toNat_inj,
      rescaled narrow, rescaled low, UInt32.toNat_toUInt64, UInt32.toNat_toUInt64, plans.width,
      plans.height]
    exact ⟨rfl, rfl⟩
  · rintro (zero | zero | invalid | invalid | zero | large | zero)
    · exact range.generation (plans.generation.symm.trans zero)
    · exact range.revision (plans.revision.symm.trans zero)
    · exact invalid (plans.logical ▸ range.desired)
    · exact invalid buffer
    · exact positive.1 (congrArg UInt32.toNat zero)
    · rw [UInt32.lt_iff_toNat_lt, maximum_to_nat] at large
      omega
    · have none := plans.scale.symm.trans (congrArg UInt32.toNat zero)
      rw [UInt32.toNat_zero] at none
      omega

end Valid

end WaylandSurfaceState.InRange

/-- A plan whose metrics are valid is refused only by a host that has run out of
generations. -/
theorem WaylandCommit.set_metrics_accepted {plan : WaylandCommit}
    (valid : ∀ generation, generation ≠ 0 → (plan.metrics generation).valid = true)
    {window : HostWindowState} (room : window.metrics.generation ≠ maxGeneration) :
    (plan.setMetrics window).1 ≠ .invalid := by
  have accepted := valid (window.metrics.generation + 1) (Nat.succ_ne_zero _)
  unfold WaylandCommit.metrics at accepted
  unfold WaylandCommit.setMetrics HostWindowState.setMetricsLocked
  split
  · simp
  · dsimp only
    rw [if_neg (not_not.mpr accepted)]
    simp

/-- Every commit is exact: the machine's numbers never wrap, a commit is refused just
when the exact one is out of range, and one that is returned passes the checks of the
protocol and of the host. -/
theorem wayland_commits_exact {run : SurfaceRun} (reached : Reachable surfaceMachine run) :
    run.surface.NeverWraps ∧
    (¬ run.surface.HasCommit → run.surface.prepareCommit = .ok (none, run.surface)) ∧
    (run.surface.HasCommit →
      ((∃ failure, run.surface.prepareCommit = .error failure) ↔
        run.surface.nextCommitGeneration = maxCounter ∨ run.surface.Overflows)) ∧
    (∀ failure, run.surface.prepareCommit = .error failure →
      surfaceMachine.step run .prepareCommit = some run) ∧
    ∀ commit after, run.surface.prepareCommit = .ok (some commit, after) →
      commit.valid = true ∧
      (∀ generation, generation ≠ 0 → (commit.metrics generation).valid = true) ∧
      ∀ window : HostWindowState, window.metrics.generation ≠ maxGeneration →
        (commit.setMetrics window).1 ≠ .invalid := by
  have range := InRange.reached reached
  refine ⟨range.never_wraps, prepare_commit_idle, ?_, ?_, ?_⟩
  · intro has
    obtain ⟨refused, what, failed⟩ | ⟨fits, commit, after, planned, _⟩ :=
      range.prepare_commit_exact has
    · exact ⟨fun _ => refused, fun _ => ⟨_, failed⟩⟩
    · constructor
      · rintro ⟨failure, failed⟩
        rw [planned] at failed
        cases failed
      · intro refused
        exact absurd refused fits
  · intro failure failed
    simp [surfaceMachine, WaylandSurfaceState.perform, failed, Except.map]
  · intro commit after returned
    have has : run.surface.HasCommit := by
      by_contra idle
      rw [prepare_commit_idle idle] at returned
      cases returned
    obtain ⟨_, what, failed⟩ | ⟨fits, other, _, planned, plans⟩ := range.prepare_commit_exact has
    · rw [failed] at returned
      cases returned
    · rw [planned] at returned
      cases returned
      have valid : ∀ generation, generation ≠ 0 → (commit.metrics generation).valid = true :=
        fun _ => range.metrics_valid plans
      exact ⟨range.commit_valid plans (fun beyond => fits (.inr beyond)), valid,
        fun _ => WaylandCommit.set_metrics_accepted valid⟩

/-- The first frame at a scale of one and a half is planned, and its plan is valid. -/
theorem wayland_commit_valid : ∃ commit after,
    rescaledRun.surface.prepareCommit = .ok (some commit, after) ∧ commit.valid = true := by
  obtain ⟨_, _, _, _, returned⟩ := wayland_commits_exact rescaled_run_reached
  obtain ⟨commit, after, planned⟩ : ∃ commit after,
      rescaledRun.surface.prepareCommit = .ok (some commit, after) := by
    exact ⟨_, _, rfl⟩
  exact ⟨commit, after, planned, (returned commit after planned).1⟩

end Dui
