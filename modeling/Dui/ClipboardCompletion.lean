import Dui.ClipboardMoves

/-! Every operation of a window, and so every action on its clipboard, is a row of
clipboard moves. -/
namespace Dui
open Host HostWindowState Transition

/-- A window stopped in between has posted its shutdown task. -/
def ShutdownPosted (before after : HostWindowState) : Prop :=
  before.running = true → after.running = false → after.shutdownUiPending = true

instance (before after : HostWindowState) : Decidable (ShutdownPosted before after) :=
  inferInstanceAs (Decidable (_ → _ → _))

section Moves
variable {kept : Bool} {host : Host}

open Relation (ReflTransGen)

theorem shutdown_moves (onPlatform : Bool)
    (posted : kept = true → ShutdownPosted host.state (host.shutdown onPlatform).state) :
    ClipboardMoves kept host.clipboardView (host.shutdown onPlatform).clipboardView := by
  obtain ⟨_, same⟩ | ⟨running, pointers, stopped | released⟩ := shutdown_clipboard host onPlatform
  · rw [same]
  · rw [stopped]
    exact .single (.stop host.clipboardView pointers running)
  · have ran : (host.shutdown onPlatform).state.running = false :=
      congrArg ClipboardView.running released
    have ended : (host.shutdown onPlatform).state.shutdownUiPending = false :=
      congrArg ClipboardView.shutdownUiPending released
    rw [released]
    cases kept with
    | false => exact .single (.abandon host.clipboardView running)
    | true =>
      have pending := posted rfl running ran
      simp [ended] at pending

/-- A shutdown after moves that leave the window running as it was. -/
theorem shutdown_moves_after (before : Host) {onPlatform : Bool}
    (moves : ClipboardMoves kept before.clipboardView host.clipboardView)
    (running : host.state.running = before.state.running)
    (posted : kept = true → ShutdownPosted before.state (host.shutdown onPlatform).state) :
    ClipboardMoves kept before.clipboardView (host.shutdown onPlatform).clipboardView := by
  apply moves.trans
  apply shutdown_moves
  intro keeps ran
  exact posted keeps (running ▸ ran)

theorem post_frame_control_clipboard (host : Host) (control : FrameControl) :
    (host.postFrameControl control).2.clipboardView = host.clipboardView := by
  unfold postFrameControl
  split
  · rfl
  · exact post_platform_clipboard host _

theorem frame_generation_exhausted_clipboard (host : Host) :
    host.frameGenerationExhausted.2.clipboardView = host.clipboardView := by
  unfold frameGenerationExhausted
  dsimp only
  split <;> rfl

theorem settle_frame_moves (before : Host) {control : FrameControl} {onPlatform : Bool}
    (moves : ClipboardMoves kept before.clipboardView host.clipboardView)
    (running : host.state.running = before.state.running)
    (posted : kept = true →
      ShutdownPosted before.state (host.settleFrame control onPlatform).state) :
    ClipboardMoves kept before.clipboardView
      (host.settleFrame control onPlatform).clipboardView := by
  have control_same := post_frame_control_clipboard host control
  have control_ran : (host.postFrameControl control).2.state.running = before.state.running :=
    (congrArg ClipboardView.running control_same).trans running
  unfold settleFrame at posted ⊢
  dsimp only at posted ⊢
  split
  case isTrue refused =>
    rw [if_pos refused] at posted
    apply shutdown_moves_after before _ control_ran posted
    rw [control_same]
    exact moves
  case isFalse taken =>
    rw [if_neg taken] at posted
    have same := frame_generation_exhausted_clipboard (host.postFrameControl control).2
    split
    case isTrue exhausted =>
      rw [if_pos exhausted] at posted
      apply shutdown_moves_after before _ ((congrArg ClipboardView.running same).trans control_ran) posted
      rw [same, control_same]
      exact moves
    case isFalse =>
      rw [same, control_same]
      exact moves

theorem complete_clipboard_moves (host : Host) (request : ClipboardRequestId) (status : ClipboardStatus)
    (text : Option (List UInt8)) (onPlatform : Bool)
    (posted : kept = true → ShutdownPosted host.state
      (host.completeClipboard request status text onPlatform).state) :
    ClipboardMoves kept host.clipboardView
      (host.completeClipboard request status text onPlatform).clipboardView := by
  obtain ⟨ignored, _⟩ | ⟨pending, member, same, running, decided⟩ :=
    complete_clipboard_cases host.state request status text
  · rw [completeClipboard, ignored]
  · split at decided
    case isTrue =>
      simp only [completeClipboard, decided] at posted ⊢
      cases taken : host.postSucceeds with
      | true =>
        simp only [try_post_ui_taken host _ taken, if_true]
        exact .single (.answer host.clipboardView
          ⟨host.state.id, request, pending.operation, status, text⟩ running
          ⟨pending, member, same⟩)
      | false =>
        simp only [try_post_ui_refused host _ taken, Bool.false_eq_true, if_false] at posted ⊢
        exact shutdown_moves_after host .refl rfl posted
    case isFalse =>
      rw [completeClipboard, decided]
      exact .refl

theorem set_clipboard_backend_moves (backend : Option Nat)
    (posted : kept = true → ShutdownPosted host.state (host.setClipboardBackend backend).state) :
    ClipboardMoves kept host.clipboardView (host.setClipboardBackend backend).clipboardView := by
  obtain ⟨_, decided⟩ | ⟨running, decided⟩ | ⟨running, decided⟩ :=
    set_clipboard_backend_cases host.state backend
  · rw [setClipboardBackend, decided]
  · simp only [setClipboardBackend, decided] at posted ⊢
    exact shutdown_moves_after host .refl rfl posted
  · simp only [setClipboardBackend, decided] at posted ⊢
    split at posted
    case isTrue none =>
      rw [if_pos none]
      have same : host.clipboardView = { host.clipboardView with requests := [] } := by
        rw [← List.isEmpty_iff.mp none]
        rfl
      exact (congrArg (ClipboardMoves kept host.clipboardView) same).mp .refl
    case isFalse some =>
      rw [if_neg some]
      generalize replaced : ({ host with state := _ } : Host) = next at posted ⊢
      have same : next.postSucceeds = host.postSucceeds := by rw [← replaced]; rfl
      cases taken : next.postSucceeds with
      | true =>
        simp only [try_post_ui_taken next _ taken, if_true]
        rw [← replaced]
        exact .single (.replace host.clipboardView host.state.id running)
      | false =>
        simp only [try_post_ui_refused next _ taken, Bool.false_eq_true, if_false] at posted ⊢
        rw [← replaced] at posted ⊢
        exact shutdown_moves_after host .refl rfl posted

/-- A part of a task that only leaves the queue. -/
theorem pass_moves {next : Host} {step : UiStep} {rest : List UiStep}
    (queued : host.uiQueue = step :: rest) (other : step.besides)
    (same : next.clipboardView = { host.clipboardView with queue := rest }) :
    ClipboardMoves kept host.clipboardView next.clipboardView := by
  have move : ClipboardMove kept host.clipboardView _ :=
    .pass host.clipboardView [] queued other (by simp)
  rw [List.append_nil] at move
  rw [same]
  exact .single move

theorem run_ui_moves {step : UiStep} {rest : List UiStep} (queued : host.uiQueue = step :: rest)
    (posted : kept = true → ShutdownPosted host.state
      (Host.runUiStep { host with uiQueue := rest } step).state) :
    ClipboardMoves kept host.clipboardView
      (Host.runUiStep { host with uiQueue := rest } step).clipboardView := by
  cases step with
  | invoke generation requireRunning event =>
    have told : (Host.runUiStep { host with uiQueue := rest }
        (.invoke generation requireRunning event)).clipboardView = { host.clipboardView with
          queue := rest
          delivered := if host.clipboardView.invokes generation requireRunning then
            host.clipboardView.delivered ++ [(generation, event)]
            else host.clipboardView.delivered } := by
      simp only [runUiStep, invokeDelegate]
      change Host.clipboardView (if host.clipboardView.invokes generation requireRunning then _
        else _) = _
      split <;> rfl
    rw [told]
    exact .single (.tell host.clipboardView queued)
  | frameRequested generation request =>
    have other : UiStep.besides (.frameRequested generation request) := ⟨rfl, by simp⟩
    simp only [runUiStep, invokeDelegate]
    split
    · split
      · exact .single (.pass host.clipboardView [(generation, .frameRequested request)] queued
          other (by simp [DelegateEvent.completion]))
      · exact pass_moves queued other rfl
    · exact pass_moves queued other rfl
  | frameDelivered =>
    apply settle_frame_moves host _ _ posted
    · exact pass_moves queued ⟨rfl, by simp⟩ rfl
    · rfl
  | dropSemantics => exact pass_moves queued ⟨rfl, by simp⟩ rfl
  | finishShutdown generation =>
    simp only [runUiStep, schedule_platform_shutdown_clipboard]
    unfold releaseDelegateLocked
    dsimp only
    split
    · exact .single (.finish host.clipboardView queued)
    · exact .single (.finish host.clipboardView queued)

theorem bind_delegate_moves (delegate : Nat) (onPlatform : Bool) :
    ClipboardMoves false host.clipboardView
      (host.bindDelegate delegate onPlatform).2.clipboardView := by
  unfold bindDelegate
  split
  · exact .refl
  · split
    · exact .refl
    · dsimp only
      generalize bound : ({ host with state := _ } : Host) = next
      have rebound : ClipboardMoves false host.clipboardView next.clipboardView := by
        rw [← bound]
        exact .single (.rebind host.clipboardView true _)
      have running : next.state.running = host.state.running := by rw [← bound]
      cases taken : next.postSucceeds with
      | true =>
        simp only [post_ui_taken next _ taken, if_true]
        refine rebound.trans (.single (.post next.clipboardView ?_))
        simp only [createdTask, List.mem_cons]
        rintro step (rfl | shown)
        · exact ⟨rfl, by simp⟩
        · split at shown
          · obtain rfl := List.mem_singleton.mp shown
            exact ⟨rfl, by simp⟩
          · cases shown
      | false =>
        simp only [post_ui_refused next _ taken, Bool.false_eq_true, if_false]
        exact shutdown_moves_after host rebound running (by simp)

end Moves

namespace ClipboardSystem
variable {system next : ClipboardSystem}

/-- The action leaves the binding of the delegate alone. -/
def keepsBinding (system : ClipboardSystem) : Action → Bool
  | .bindDelegate _ _ =>
    !system.host.state.running || system.host.state.delegateGeneration = maxGeneration
  | .resetBinding generation =>
    generation = 0 || system.host.state.delegateGeneration ≠ generation
  | .expireDelegate => system.host.state.delegate.isNone
  | _ => true

theorem start_moves {kept : Bool} {operation : ClipboardOperation} {text : Option (List UInt8)}
    {onPlatform : Bool} (posted : kept = true → ShutdownPosted system.host.state
      (system.start operation text onPlatform).host.state) :
    ClipboardMoves kept system.host.clipboardView
      (system.start operation text onPlatform).host.clipboardView := by
  obtain decided | decided | ⟨backend, _, running, decided⟩ :=
    start_clipboard_cases system.host.state operation
  · rw [start, decided]
  · simp only [start, decided] at posted ⊢
    exact shutdown_moves_after system.host .refl rfl posted
  · simp only [start, decided] at posted ⊢
    split at posted
    case isTrue taken =>
      rw [if_pos taken]
      exact .single (.start system.host.clipboardView _ operation running)
    case isFalse refused =>
      rw [if_neg refused]
      have move : ClipboardMove kept system.host.clipboardView _ :=
        .takeBack system.host.clipboardView system.host.state.clipboardServiceGeneration
      rw [← erased_made _ operation] at move
      exact shutdown_moves_after system.host (.single move) rfl posted

/-- Every action is a row of moves, of the kind its binding and its posts allow. -/
theorem perform_moves {kept : Bool} {action : Action} (stepped : system.perform action = some next)
    (binding : kept = true → system.keepsBinding action = true)
    (posted : kept = true → ShutdownPosted system.host.state next.host.state) :
    ClipboardMoves kept system.host.clipboardView next.host.clipboardView := by
  cases action with
  | readClipboardText onPlatform =>
    cases stepped
    exact start_moves posted
  | writeClipboardText text onPlatform =>
    cases stepped
    split at posted
    case isTrue valid =>
      rw [if_pos valid]
      exact start_moves posted
    case isFalse invalid =>
      rw [if_neg invalid]
  | completeClipboard request status text onPlatform =>
    cases stepped
    exact complete_clipboard_moves system.host request status text onPlatform posted
  | setClipboardBackend backend =>
    cases stepped
    exact set_clipboard_backend_moves backend posted
  | runTask =>
    simp only [perform, runTask] at stepped
    split at stepped
    · split at stepped <;> cases stepped <;> exact .refl
    · cases stepped
  | callReturns throws =>
    simp only [perform, callReturns] at stepped
    split at stepped
    · cases stepped
    · split at stepped
      · cases stepped
        exact complete_clipboard_moves (system.host.reportError _ _) _ _ _ _ posted
      · cases stepped
        exact .refl
  | bindDelegate delegate onPlatform =>
    cases stepped
    cases kept with
    | false => exact bind_delegate_moves delegate onPlatform
    | true =>
      have kept := binding rfl
      simp only [keepsBinding, Bool.or_eq_true, Bool.not_eq_true', decide_eq_true_eq] at kept
      dsimp only
      unfold Host.bindDelegate
      split
      · exact .refl
      · split
        · exact .refl
        · simp_all
  | resetBinding generation =>
    cases stepped
    dsimp only
    unfold Host.resetBinding
    split
    · rename_i current
      cases kept with
      | false => exact .single (.rebind system.host.clipboardView false _)
      | true => simp [keepsBinding, current] at binding
    · exact .refl
  | expireDelegate =>
    cases stepped
    cases kept with
    | false => exact .single (.rebind system.host.clipboardView false _)
    | true =>
      have unbound : system.host.state.delegate = none := by simpa [keepsBinding] using binding rfl
      dsimp only
      rw [← unbound]
  | shutdown onPlatform =>
    cases stepped
    exact shutdown_moves onPlatform posted
  | runUi =>
    simp only [perform, onHost, Host.perform] at stepped
    split at stepped
    · cases stepped
    · rename_i step rest queued
      cases stepped
      exact run_ui_moves queued posted
  | completeShutdown =>
    simp only [perform, onHost, Host.perform] at stepped
    split at stepped
    · cases stepped
    · rename_i task rest queued
      cases stepped
      cases task with
      | frameControl control =>
        simp only [runPlatformTask]
        split
        · simp only [Bool.false_eq_true, and_false, if_false]
          exact .refl
        · exact .refl
      | completeShutdown =>
        simp only [runPlatformTask, complete_platform_shutdown_clipboard]
        exact .refl

/-- A step that gives out an id makes a request under it. -/
theorem issue_cases {action : Action} {request : ClipboardRequestId}
    (stepped : system.perform action = some next)
    (issued : next.issued = system.issued ++ [request]) :
    ∃ service operation, system.host.state.running = true ∧
      request = ⟨service, system.host.clipboardView.nextSequence⟩ ∧
      next.host.clipboardView = { system.host.clipboardView with
        nextSequence := system.host.clipboardView.nextSequence + 1
        requests := system.host.clipboardView.requests ++
          [⟨⟨service, system.host.clipboardView.nextSequence⟩, operation⟩] } := by
  have unissued : ∀ {kept : ClipboardSystem}, kept.issued = system.issued → kept ≠ next := by
    rintro kept same rfl
    simp [same] at issued
  have started : ∀ {operation text onPlatform}, system.start operation text onPlatform = next →
      ∃ service operation, system.host.state.running = true ∧
        request = ⟨service, system.host.clipboardView.nextSequence⟩ ∧
        next.host.clipboardView = { system.host.clipboardView with
          nextSequence := system.host.clipboardView.nextSequence + 1
          requests := system.host.clipboardView.requests ++
            [⟨⟨service, system.host.clipboardView.nextSequence⟩, operation⟩] } := by
    intro operation text onPlatform made
    obtain decided | decided | ⟨backend, _, running, decided⟩ :=
      start_clipboard_cases system.host.state operation
    · rw [start, decided] at made
      exact absurd made (unissued rfl)
    · simp only [start, decided] at made
      exact absurd made (unissued rfl)
    · simp only [start, decided] at made
      split at made
      · cases made
        have same : [⟨system.host.state.clipboardServiceGeneration,
            system.host.state.clipboardNextSequence⟩] = [request] := by
          simpa using issued
        cases same
        exact ⟨_, operation, running, rfl, rfl⟩
      · exact absurd made (unissued rfl)
  cases action with
  | readClipboardText onPlatform => exact started (Option.some.inj stepped)
  | writeClipboardText text onPlatform =>
    simp only [perform] at stepped
    split at stepped
    · exact started (Option.some.inj stepped)
    · exact absurd (Option.some.inj stepped) (unissued rfl)
  | completeClipboard | setClipboardBackend =>
    exact absurd (Option.some.inj stepped) (unissued rfl)
  | runTask =>
    simp only [perform, runTask] at stepped
    split at stepped
    · split at stepped <;> exact absurd (Option.some.inj stepped) (unissued rfl)
    · cases stepped
  | callReturns throws =>
    simp only [perform, callReturns] at stepped
    split at stepped
    · cases stepped
    · split at stepped <;> exact absurd (Option.some.inj stepped) (unissued rfl)
  | bindDelegate | resetBinding | expireDelegate | shutdown | runUi | completeShutdown =>
    simp only [perform, onHost] at stepped
    obtain ⟨host, _, made⟩ := Option.map_eq_some_iff.mp stepped
    exact absurd made (unissued rfl)

end ClipboardSystem

/-- What pending requests have in common. -/
structure HostWindowState.Enrolled (state : HostWindowState) : Prop where
  backed : state.clipboardBackend.isSome → state.clipboardServiceGeneration ≠ 0
  numbered : state.clipboardNextSequence ≠ 0
  pending : ∀ pending ∈ state.clipboardRequests,
    pending.id.service = state.clipboardServiceGeneration ∧ pending.id.valid = true
  stopped : state.running = false → state.clipboardRequests = []

/-- The service is kept, and no requests come in. -/
structure Lessens (state next : HostWindowState) : Prop where
  service : next.clipboardServiceGeneration = state.clipboardServiceGeneration
  sequence : next.clipboardNextSequence = state.clipboardNextSequence
  backend : next.clipboardBackend = state.clipboardBackend ∨ next.clipboardBackend = none
  requests : (next.running = state.running ∧
    next.clipboardRequests ⊆ state.clipboardRequests) ∨ next.clipboardRequests = []

namespace Lessens
variable {state next last : HostWindowState}

@[refl] theorem refl : Lessens state state := ⟨rfl, rfl, .inl rfl, .inl ⟨rfl, List.Subset.refl _⟩⟩

theorem trans (first : Lessens state next) (second : Lessens next last) : Lessens state last := by
  constructor
  · exact second.service.trans first.service
  · exact second.sequence.trans first.sequence
  · obtain same | gone := second.backend
    · rw [same]
      exact first.backend
    · exact .inr gone
  · obtain ⟨ran, fewer⟩ | gone := second.requests
    · obtain ⟨running, less⟩ | empty := first.requests
      · exact .inl ⟨ran.trans running, List.Subset.trans fewer less⟩
      · exact .inr (List.eq_nil_of_subset_nil (empty ▸ fewer))
    · exact .inr gone

theorem enrolled (lessens : Lessens state next) (enrolled : state.Enrolled) : next.Enrolled := by
  obtain ⟨service, sequence, backend, requests⟩ := lessens
  have fewer : next.clipboardRequests ⊆ state.clipboardRequests := by
    obtain ⟨_, fewer⟩ | gone := requests
    · exact fewer
    · simp [gone]
  constructor
  · intro backed
    rw [service]
    apply enrolled.backed
    obtain same | gone := backend
    · rwa [same] at backed
    · simp [gone] at backed
  · rw [sequence]
    exact enrolled.numbered
  · intro pending member
    rw [service]
    exact enrolled.pending pending (fewer member)
  · intro stopped
    obtain ⟨running, fewer⟩ | gone := requests
    · rw [enrolled.stopped (running ▸ stopped)] at fewer
      exact List.eq_nil_of_subset_nil fewer
    · exact gone

end Lessens

section Lessens
variable (host : Host)

theorem post_platform_state (task : PlatformTask) :
    (host.postPlatform task).2.state = host.state := by
  unfold postPlatform
  split <;> rfl

theorem schedule_platform_shutdown_lessens {state : HostWindowState} (onPlatform : Bool)
    (lessens : Lessens state host.state) :
    Lessens state (host.schedulePlatformShutdown onPlatform).state := by
  apply lessens.trans
  unfold schedulePlatformShutdown
  split
  · rfl
  · dsimp only
    split
    · unfold completePlatformShutdown
      split
      · exact ⟨rfl, rfl, .inl rfl, .inl ⟨rfl, List.Subset.refl _⟩⟩
      · exact ⟨rfl, rfl, .inr rfl, .inl ⟨rfl, List.Subset.refl _⟩⟩
    · have posted := post_platform_state
        { host with state := { host.state with platformShutdownPending := true } } .completeShutdown
      split
      · rw [posted]
        exact ⟨rfl, rfl, .inl rfl, .inl ⟨rfl, List.Subset.refl _⟩⟩
      · dsimp only
        rw [posted]
        exact ⟨rfl, rfl, .inl rfl, .inl ⟨rfl, List.Subset.refl _⟩⟩

theorem release_delegate_lessens (state : HostWindowState) (generation : Nat) :
    Lessens state (releaseDelegateLocked state generation) := by
  unfold releaseDelegateLocked
  dsimp only
  split <;> exact ⟨rfl, rfl, .inl rfl, .inl ⟨rfl, List.Subset.refl _⟩⟩

theorem shutdown_lessens {state : HostWindowState} (onPlatform : Bool)
    (lessens : Lessens state host.state) : Lessens state (host.shutdown onPlatform).state := by
  apply lessens.trans
  unfold shutdown
  split
  · split
    · exact schedule_platform_shutdown_lessens host onPlatform .refl
    · rfl
  · have stopped : Lessens host.state host.state.stopLocked.takeActivePointersLocked.2 :=
      ⟨rfl, rfl, .inl rfl, .inr rfl⟩
    dsimp only
    cases taken : host.postSucceeds with
    | true =>
      simp only [post_ui_taken { host with
        state := host.state.stopLocked.takeActivePointersLocked.2 } _ taken, if_true]
      exact stopped
    | false =>
      simp only [post_ui_refused { host with
        state := host.state.stopLocked.takeActivePointersLocked.2 } _ taken, Bool.false_eq_true,
        if_false]
      apply schedule_platform_shutdown_lessens
      exact stopped.trans (release_delegate_lessens _ _)

/-- A shutdown leaves no request pending. -/
theorem shutdown_clears (onPlatform : Bool)
    (stopped : host.state.running = false → host.state.clipboardRequests = []) :
    (host.shutdown onPlatform).state.clipboardRequests = [] := by
  obtain ⟨ended, same⟩ | ⟨_, pointers, same | same⟩ := shutdown_clipboard host onPlatform
  · exact (congrArg ClipboardView.requests same).trans (stopped ended)
  · exact congrArg ClipboardView.requests same
  · exact congrArg ClipboardView.requests same

theorem settle_frame_lessens {state : HostWindowState} (control : FrameControl)
    (onPlatform : Bool) (lessens : Lessens state host.state) :
    Lessens state (host.settleFrame control onPlatform).state := by
  have posted : (host.postFrameControl control).2.state = host.state := by
    unfold postFrameControl
    split
    · rfl
    · exact post_platform_state host _
  unfold settleFrame
  dsimp only
  split
  · apply shutdown_lessens
    rw [posted]
    exact lessens
  · unfold frameGenerationExhausted
    have settled : Lessens state
        (host.postFrameControl control).2.state.frameGenerationExhaustedLocked.2 := by
      rw [posted]
      exact lessens.trans ⟨rfl, rfl, .inl rfl, .inl ⟨rfl, List.Subset.refl _⟩⟩
    dsimp only
    split
    · exact shutdown_lessens _ onPlatform settled
    · exact settled

theorem complete_clipboard_lessens (request : ClipboardRequestId) (status : ClipboardStatus)
    (text : Option (List UInt8)) (onPlatform : Bool) :
    Lessens host.state (host.completeClipboard request status text onPlatform).state := by
  unfold completeClipboard
  split
  · rfl
  · rfl
  · cases taken : host.postSucceeds with
    | true =>
      simp only [try_post_ui_taken host _ taken, if_true]
      exact ⟨rfl, rfl, .inl rfl, .inl ⟨rfl, List.filter_sublist.subset⟩⟩
    | false =>
      simp only [try_post_ui_refused host _ taken, Bool.false_eq_true, if_false]
      exact shutdown_lessens _ onPlatform .refl

theorem bind_delegate_lessens (delegate : Nat) (onPlatform : Bool) :
    Lessens host.state (host.bindDelegate delegate onPlatform).2.state := by
  unfold bindDelegate
  split
  · rfl
  · split
    · rfl
    · dsimp only
      generalize bound : ({ host with state := _ } : Host) = next
      have rebound : Lessens host.state next.state := by
        rw [← bound]
        exact ⟨rfl, rfl, .inl rfl, .inl ⟨rfl, List.Subset.refl _⟩⟩
      cases taken : next.postSucceeds with
      | true =>
        simp only [post_ui_taken next _ taken, if_true]
        exact rebound
      | false =>
        simp only [post_ui_refused next _ taken, Bool.false_eq_true, if_false]
        exact shutdown_lessens _ onPlatform rebound

theorem run_ui_lessens (step : UiStep) : Lessens host.state (host.runUiStep step).state := by
  cases step with
  | invoke generation requireRunning event =>
    simp only [runUiStep, invokeDelegate]
    split <;> rfl
  | frameRequested generation request =>
    simp only [runUiStep, invokeDelegate]
    split
    · split <;> rfl
    · rfl
  | frameDelivered =>
    apply settle_frame_lessens
    exact ⟨rfl, rfl, .inl rfl, .inl ⟨rfl, List.Subset.refl _⟩⟩
  | dropSemantics => exact ⟨rfl, rfl, .inl rfl, .inl ⟨rfl, List.Subset.refl _⟩⟩
  | finishShutdown generation =>
    apply schedule_platform_shutdown_lessens
    exact release_delegate_lessens _ _

end Lessens

namespace ClipboardSystem
variable {system next : ClipboardSystem}

theorem start_enrolled (enrolled : system.host.state.Enrolled) (operation : ClipboardOperation)
    (text : Option (List UInt8)) (onPlatform : Bool) :
    (system.start operation text onPlatform).host.state.Enrolled := by
  obtain decided | decided | ⟨backend, backed, running, decided⟩ :=
    start_clipboard_cases system.host.state operation
  · rw [start, decided]
    exact enrolled
  · simp only [start, decided]
    exact (shutdown_lessens _ onPlatform .refl).enrolled enrolled
  · have made : HostWindowState.Enrolled { system.host.state with
        clipboardNextSequence := system.host.state.clipboardNextSequence + 1
        clipboardRequests := system.host.state.clipboardRequests ++
          [⟨⟨system.host.state.clipboardServiceGeneration,
            system.host.state.clipboardNextSequence⟩, operation⟩] } := by
      have serves := enrolled.backed (by simp [backed])
      refine ⟨enrolled.backed, Nat.succ_ne_zero _, ?_, ?_⟩
      · intro pending member
        obtain before | latest := List.mem_append.mp member
        · exact enrolled.pending pending before
        · obtain rfl := List.mem_singleton.mp latest
          exact ⟨rfl, by simp [ClipboardRequestId.valid, serves, enrolled.numbered]⟩
      · simp [running]
    simp only [start, decided]
    split
    · exact made
    · refine Lessens.enrolled (shutdown_lessens _ onPlatform ?_) made
      exact ⟨rfl, rfl, .inl rfl, .inl ⟨rfl, List.filter_sublist.subset⟩⟩

theorem set_clipboard_backend_enrolled {host : Host} (enrolled : host.state.Enrolled)
    (backend : Option Nat) : (host.setClipboardBackend backend).state.Enrolled ∧
      (host.setClipboardBackend backend).state.clipboardRequests = [] := by
  obtain ⟨stopped, decided⟩ | ⟨running, decided⟩ | ⟨running, decided⟩ :=
    set_clipboard_backend_cases host.state backend
  · rw [setClipboardBackend, decided]
    exact ⟨enrolled, enrolled.stopped stopped⟩
  · simp only [setClipboardBackend, decided]
    have lessens := shutdown_lessens (host.reportError .clipboard
      (.overflowError "Clipboard service generation exhausted")) true .refl
    exact ⟨lessens.enrolled enrolled, shutdown_clears _ true enrolled.stopped⟩
  · have replaced : HostWindowState.Enrolled { host.state with
        clipboardServiceGeneration := host.state.clipboardServiceGeneration + 1
        clipboardBackend := backend
        clipboardRequests := [] } :=
      ⟨fun _ => Nat.succ_ne_zero _, enrolled.numbered, by simp, fun _ => rfl⟩
    simp only [setClipboardBackend, decided]
    split
    · exact ⟨replaced, rfl⟩
    · generalize same : ({ host with state := _ } : Host) = next
      cases taken : next.postSucceeds with
      | true =>
        simp only [try_post_ui_taken next _ taken, if_true]
        rw [← same]
        exact ⟨replaced, rfl⟩
      | false =>
        simp only [try_post_ui_refused next _ taken, Bool.false_eq_true, if_false]
        rw [← same]
        have cleared := shutdown_clears (reportPost { host with
          posts := host.posts.tail
          state := { host.state with
            clipboardServiceGeneration := host.state.clipboardServiceGeneration + 1
            clipboardBackend := backend } }) true (by simp [reportPost, reportError, running])
        have lessens := shutdown_lessens (reportPost { host with
          posts := host.posts.tail
          state := { host.state with
            clipboardServiceGeneration := host.state.clipboardServiceGeneration + 1
            clipboardBackend := backend } }) true .refl
        refine ⟨⟨?_, ?_, ?_, fun _ => cleared⟩, cleared⟩
        · intro _
          rw [lessens.service]
          exact Nat.succ_ne_zero _
        · rw [lessens.sequence]
          exact enrolled.numbered
        · intro pending member
          rw [cleared] at member
          cases member

theorem perform_enrolled (system : ClipboardSystem) {action : Action} (enrolled : system.host.state.Enrolled)
    (stepped : system.perform action = some next) : next.host.state.Enrolled := by
  cases action with
  | readClipboardText onPlatform =>
    cases stepped
    exact start_enrolled enrolled _ _ _
  | writeClipboardText text onPlatform =>
    cases stepped
    split
    · exact start_enrolled enrolled _ _ _
    · exact enrolled
  | completeClipboard request status text onPlatform =>
    cases stepped
    exact (complete_clipboard_lessens _ _ _ _ _).enrolled enrolled
  | setClipboardBackend backend =>
    cases stepped
    exact (set_clipboard_backend_enrolled enrolled backend).1
  | runTask =>
    simp only [perform, runTask] at stepped
    split at stepped
    · split at stepped <;> cases stepped <;> exact enrolled
    · cases stepped
  | callReturns throws =>
    simp only [perform, callReturns] at stepped
    split at stepped
    · cases stepped
    · split at stepped
      · cases stepped
        exact (complete_clipboard_lessens (system.host.reportError _ _) _ _ _ _).enrolled enrolled
      · cases stepped
        exact enrolled
  | bindDelegate delegate onPlatform =>
    cases stepped
    exact (bind_delegate_lessens _ delegate onPlatform).enrolled enrolled
  | resetBinding generation =>
    cases stepped
    dsimp only
    unfold Host.resetBinding
    split
    · refine Lessens.enrolled (?_ : Lessens system.host.state _) enrolled
      exact ⟨rfl, rfl, .inl rfl, .inl ⟨rfl, List.Subset.refl _⟩⟩
    · exact enrolled
  | expireDelegate =>
    cases stepped
    refine Lessens.enrolled (?_ : Lessens system.host.state _) enrolled
    exact ⟨rfl, rfl, .inl rfl, .inl ⟨rfl, List.Subset.refl _⟩⟩
  | shutdown onPlatform =>
    cases stepped
    exact (shutdown_lessens _ onPlatform .refl).enrolled enrolled
  | runUi =>
    simp only [perform, onHost, Host.perform] at stepped
    split at stepped
    · cases stepped
    · rename_i step rest queued
      cases stepped
      exact (run_ui_lessens { system.host with uiQueue := rest } step).enrolled enrolled
  | completeShutdown =>
    simp only [perform, onHost, Host.perform] at stepped
    split at stepped
    · cases stepped
    · rename_i task rest queued
      cases stepped
      cases task with
      | frameControl control =>
        simp only [runPlatformTask]
        split
        · simp only [Bool.false_eq_true, and_false, if_false]
          exact enrolled
        · exact enrolled
      | completeShutdown =>
        simp only [runPlatformTask, Host.completePlatformShutdown]
        split
        · exact enrolled
        · refine Lessens.enrolled (?_ : Lessens system.host.state _) enrolled
          exact ⟨rfl, rfl, .inr rfl, .inl ⟨rfl, List.Subset.refl _⟩⟩

/-- The actions that complete a request, fail it, supersede it or shut the window down. -/
def retires (system : ClipboardSystem) (request : ClipboardRequestId) : Action → Prop
  | .completeClipboard answered status text _ =>
    answered = request ∧ ∀ pending ∈ system.host.state.clipboardRequests, pending.id = request →
      validCompletion request pending.operation status text = true
  | .callReturns throws =>
    throws = true ∧ ∃ task, system.calling = some task ∧ task.request = request
  | .setClipboardBackend _ | .shutdown _ => True
  | _ => False

/-- A valid answer takes its request out of the pending ones. -/
theorem complete_clipboard_retires (host : Host) (enrolled : host.state.Enrolled)
    {request : ClipboardRequestId} {status : ClipboardStatus} {text : Option (List UInt8)}
    (onPlatform : Bool) (valid : ∀ pending ∈ host.state.clipboardRequests, pending.id = request →
      validCompletion request pending.operation status text = true) :
    pendingRequests (host.completeClipboard request status text onPlatform).state.clipboardRequests
      request = 0 := by
  obtain ⟨ignored, stale⟩ | ⟨pending, member, same, running, decided⟩ :=
    complete_clipboard_cases host.state request status text
  · rw [completeClipboard, ignored, pendingRequests, List.countP_eq_zero]
    intro pending member
    simp only [decide_eq_true_eq]
    intro same
    obtain stopped | replaced := stale pending member same
    · simp [enrolled.stopped stopped] at member
    · exact replaced (same ▸ (enrolled.pending pending member).1.symm)
  · rw [if_pos (valid pending member same)] at decided
    simp only [completeClipboard, decided]
    cases taken : host.postSucceeds with
    | true =>
      simp only [try_post_ui_taken host _ taken, if_true, eraseClipboardLocked, pending_erased]
    | false =>
      simp only [try_post_ui_refused host _ taken, Bool.false_eq_true, if_false]
      have cleared := shutdown_clears (reportPost { host with posts := host.posts.tail }) onPlatform
        enrolled.stopped
      rw [cleared]
      rfl

theorem retired (system : ClipboardSystem) {action : Action} {request : ClipboardRequestId}
    (enrolled : system.host.state.Enrolled) (stepped : system.perform action = some next)
    (retires : system.retires request action) :
    pendingRequests next.host.state.clipboardRequests request = 0 := by
  cases action with
  | completeClipboard answered status text onPlatform =>
    cases stepped
    obtain ⟨rfl, valid⟩ := retires
    exact complete_clipboard_retires system.host enrolled onPlatform valid
  | callReturns throws =>
    obtain ⟨rfl, task, calling, rfl⟩ := retires
    simp only [perform, callReturns, calling, if_true] at stepped
    cases stepped
    refine complete_clipboard_retires (system.host.reportError _ _) enrolled true ?_
    intro pending member same
    have valid := (enrolled.pending pending member).2
    rw [same] at valid
    simp [validCompletion, valid, ClipboardStatus.valid]
  | setClipboardBackend backend =>
    cases stepped
    rw [(set_clipboard_backend_enrolled enrolled backend).2]
    rfl
  | shutdown onPlatform =>
    cases stepped
    rw [shutdown_clears _ onPlatform enrolled.stopped]
    rfl
  | _ => cases retires

/-- The binding of the delegate is kept, and a shutdown that the action makes is posted. -/
def undisturbed (system : ClipboardSystem) (action : List Bool × Action) : Bool :=
  system.keepsBinding action.2 && (clipboardMachine.step system action).all fun next =>
    ShutdownPosted system.host.state next.host.state

theorem start_sound (initial : clipboardMachine.init system) :
    system.host.clipboardView.Counted ∧ system.host.clipboardView.Lively ∧
      system.host.state.Enrolled := by
  obtain ⟨host, ⟨id, logicalSize, physicalWidth, physicalHeight, devicePixelRatio, visible, state,
    created, rfl⟩, rfl⟩ := initial
  obtain ⟨metrics, rfl⟩ : ∃ metrics, state = { id, metrics, visible } := by
    unfold createHostWindow at created
    split at created
    · cases created
    dsimp only at created
    split at created
    · cases created
    · exact ⟨_, (Except.ok.inj created).symm⟩
  refine ⟨⟨fun _ => Nat.zero_le _, fun _ _ => rfl⟩, fun _ => ⟨rfl, fun _ => ?_⟩, ?_⟩
  · exact List.not_mem_nil
  · exact ⟨by simp, by simp, by simp, by simp⟩

/-- One step, with whatever outcomes of its posts. -/
theorem step_moves {action : List Bool × Action} {kept : Bool}
    (calm : kept = true → system.undisturbed action = true)
    (stepped : clipboardMachine.step system action = some next) :
    ClipboardMoves kept system.host.clipboardView next.host.clipboardView := by
  apply perform_moves stepped
  · intro keeps
    have calm := calm keeps
    rw [undisturbed, Bool.and_eq_true] at calm
    exact calm.1
  · intro keeps
    have calm := calm keeps
    rw [undisturbed, stepped, Bool.and_eq_true] at calm
    simpa using calm.2

theorem reachable_sound (reached : Reachable clipboardMachine system) :
    system.host.clipboardView.Counted ∧ system.host.clipboardView.Lively ∧
      system.host.state.Enrolled := by
  apply Reaches.invariant (fun system => system.host.clipboardView.Counted ∧
    system.host.clipboardView.Lively ∧ system.host.state.Enrolled) _ _ reached
  · exact fun _ initial => start_sound initial
  · rintro before action after ⟨counted, lively, enrolled⟩ _ stepped
    have moves : ClipboardMoves false _ _ := step_moves (by simp) stepped
    exact ⟨moves.keep _ ClipboardMove.counted counted, moves.keep _ ClipboardMove.lively lively,
      perform_enrolled { before with host := { before.host with posts := action.1 } }
        enrolled stepped⟩

/-- A held request is held as long as nothing disturbs it. -/
theorem reaches_held {request : ClipboardRequestId} {last : ClipboardSystem}
    (counted : next.host.clipboardView.Counted) (held : next.host.clipboardView.Held request)
    (reached : Reaches (clipboardMachine.startedIn next)
      (fun system action => system.undisturbed action = true) last) :
    last.host.clipboardView.Held request := by
  have both : last.host.clipboardView.Counted ∧ last.host.clipboardView.Held request := by
    apply Reaches.invariant (fun system => system.host.clipboardView.Counted ∧
      system.host.clipboardView.Held request) _ _ reached
    · rintro _ rfl
      exact ⟨counted, held⟩
    · rintro before action after good calm stepped
      have moves : ClipboardMoves true _ _ := step_moves (fun _ => calm) stepped
      apply moves.keep (fun view => view.Counted ∧ view.Held request) _ good
      rintro _ _ move ⟨counted, held⟩
      exact ⟨move.counted counted, move.held counted held⟩
  exact both.2

/-- A request that is gone does not come back. -/
theorem reaches_gone {request : ClipboardRequestId} {last : ClipboardSystem}
    (gone : next.host.clipboardView.Gone request)
    (reached : Reachable (clipboardMachine.startedIn next) last) :
    last.host.clipboardView.Gone request := by
  apply Reaches.invariant (fun system => system.host.clipboardView.Gone request) _ _ reached
  · rintro _ rfl
    exact gone
  · rintro before action after gone _ stepped
    have moves : ClipboardMoves false _ _ := step_moves (by simp) stepped
    exact moves.keep _ ClipboardMove.gone gone

end ClipboardSystem

/-- A clipboard request is completed at most once. From the step that gives out its id
to a bound delegate on, as long as the binding is kept and a shutdown can be posted, it
has been completed exactly once when it is no longer pending and the UI queue is
drained. A valid answer, a failing backend, a new backend and a shutdown retire a
pending request for good; an invalid answer changes nothing. -/
theorem clipboard_completes_once {system : ClipboardSystem}
    (reached : Reachable clipboardMachine system) :
    (∀ request, completions system.host.delivered request ≤ 1) ∧
    (∀ action next request last, clipboardMachine.step system action = some next →
      next.issued = system.issued ++ [request] → system.host.state.delegate.isSome →
      Reaches (clipboardMachine.startedIn next)
        (fun system action => system.undisturbed action = true) last →
      pendingRequests last.host.state.clipboardRequests request = 0 → last.host.uiQueue = [] →
      completions last.host.delivered request = 1) ∧
    (∀ action next request last, clipboardMachine.step system action = some next →
      0 < pendingRequests system.host.state.clipboardRequests request →
      system.retires request action.2 → Reachable (clipboardMachine.startedIn next) last →
      pendingRequests last.host.state.clipboardRequests request = 0) ∧
    (∀ posts request status text onPlatform next,
      (∀ pending ∈ system.host.state.clipboardRequests, pending.id = request →
        validCompletion request pending.operation status text = false) →
      clipboardMachine.step system (posts, .completeClipboard request status text onPlatform) =
        some next →
      next.host.state = system.host.state ∧ next.host.uiQueue = system.host.uiQueue ∧
        next.host.delivered = system.host.delivered) := by
  obtain ⟨counted, lively, enrolled⟩ := ClipboardSystem.reachable_sound reached
  refine ⟨?_, ?_, ?_, ?_⟩
  · intro request
    have once := counted.once request
    rw [ClipboardView.total] at once
    exact (Nat.le_add_left _ _).trans once
  · intro action next request last stepped issued bound undisturbed retired drained
    obtain ⟨service, operation, running, rfl, made⟩ := ClipboardSystem.issue_cases stepped issued
    have held : next.host.clipboardView.Held ⟨service, system.host.clipboardView.nextSequence⟩ := by
      rw [made]
      exact ClipboardView.Held.made counted lively running bound service operation
    have counts : next.host.clipboardView.Counted := by
      rw [made]
      exact (ClipboardMove.start _ service operation running : ClipboardMove true _ _).counted counted
    exact (ClipboardSystem.reaches_held counts held undisturbed).completed retired drained
  · intro action next request last stepped pending retires later
    have known : request.sequence < system.host.clipboardView.nextSequence := by
      by_contra unknown
      have none := counted.fresh request (not_lt.mp unknown)
      have positive : 0 < pendingRequests system.host.clipboardView.requests request := pending
      rw [ClipboardView.total] at none
      omega
    have moves : ClipboardMoves false _ _ := ClipboardSystem.step_moves (by simp) stepped
    refine (ClipboardSystem.reaches_gone ⟨?_, ?_⟩ later).2
    · exact known.trans_le (moves.keep (fun view =>
        system.host.clipboardView.nextSequence ≤ view.nextSequence) ClipboardMove.sequence
        (Nat.le_refl _))
    · exact ClipboardSystem.retired
        { system with host := { system.host with posts := action.1 } }
        enrolled stepped retires
  · intro posts request status text onPlatform next invalid stepped
    cases stepped
    obtain ⟨ignored, _⟩ | ⟨pending, member, same, _, decided⟩ :=
      complete_clipboard_cases system.host.state request status text
    · simp only [completeClipboard, ignored, and_self]
    · rw [invalid pending member same] at decided
      simp only [Bool.false_eq_true, if_false] at decided
      simp only [completeClipboard, decided, reportError, and_self]

/-- A window just created. -/
def clipboardWindow : ClipboardSystem :=
  { host := { state := { id := 1, metrics := ⟨⟨10, 20⟩, 10, 20, 1, 1⟩ } } }

theorem clipboard_window_initial : clipboardMachine.init clipboardWindow := by
  refine ⟨clipboardWindow.host, ⟨1, ⟨10, 20⟩, 10, 20, 1, false, clipboardWindow.host.state, ?_,
    rfl⟩, rfl⟩
  have valid : WindowMetrics.valid ⟨⟨10, 20⟩, 10, 20, 1, 1⟩ = true := by decide +kernel
  simp [createHostWindow, valid, clipboardWindow]

/-- A delegate and a backend come in. -/
def clipboardOpened : List (List Bool × ClipboardSystem.Action) :=
  [([], .bindDelegate 5 false), ([], .runUi), ([], .setClipboardBackend (some 3))]

/-- The backend answers its read from inside the call, first wrongly, then twice, and
throws; the window is shut down before the answer is delivered. -/
def answeredInside : List (List Bool × ClipboardSystem.Action) :=
  [([], .runTask), ([], .completeClipboard ⟨1, 1⟩ .success none true),
    ([], .completeClipboard ⟨1, 1⟩ .denied none true),
    ([], .completeClipboard ⟨1, 1⟩ .denied none true), ([], .callReturns true),
    ([], .shutdown true), ([], .runUi), ([], .runUi), ([], .runUi), ([], .runUi)]

/-- The read is completed once. -/
theorem answered_inside_completes_once :
    ∃ opened issued last, clipboardMachine.run clipboardWindow clipboardOpened = some opened ∧
      clipboardMachine.step opened ([], .readClipboardText false) = some issued ∧
      (clipboardMachine.startedIn issued).runGuarded
        (fun system action => system.undisturbed action = true) issued answeredInside = some last ∧
      completions last.host.delivered ⟨1, 1⟩ = 1 := by
  have observed : ((clipboardMachine.run clipboardWindow clipboardOpened).bind fun opened =>
      (clipboardMachine.step opened ([], .readClipboardText false)).bind fun issued =>
        ((clipboardMachine.startedIn issued).runGuarded
          (fun system action => system.undisturbed action = true) issued answeredInside).map
          fun last => (opened.issued, issued.issued, opened.host.state.delegate,
            last.host.state.clipboardRequests, last.host.uiQueue)) =
      some ([], [⟨1, 1⟩], some 5, [], []) := by rfl
  obtain ⟨opened, ran, observed⟩ := Option.bind_eq_some_iff.mp observed
  obtain ⟨issued, stepped, observed⟩ := Option.bind_eq_some_iff.mp observed
  obtain ⟨last, answered, seen⟩ := Option.map_eq_some_iff.mp observed
  simp only [Prod.mk.injEq] at seen
  obtain ⟨before, after, bound, retired, drained⟩ := seen
  refine ⟨opened, issued, last, ran, stepped, answered, ?_⟩
  have once := clipboard_completes_once (Reachable.run (.start clipboard_window_initial) ran)
  exact once.2.1 _ issued ⟨1, 1⟩ last stepped (by rw [before, after]; rfl) (by rw [bound]; rfl)
    (Reaches.run_guarded (.start rfl) answered) (by rw [retired]; rfl) drained

end Dui
