import Dui.HostText

/-! When the two ends of a text session agree. Both may edit at once, and the host
tells by revisions which values the native side has seen; that is enough as long as
an application value is never handed over a native edit the host has yet to hear of
or has heard of since it read the value. -/
namespace Dui
open HostWindowState Transition TextSystem

/-- A session as it was read some time before. -/
structure HostTextSession.ReadOf (read live : HostTextSession) : Prop where
  id : read.id = live.id
  revision : read.valueRevision ≤ live.valueRevision
  value : read.valueRevision = live.valueRevision → read.value = live.value

theorem HostTextSession.ReadOf.refl (live : HostTextSession) : live.ReadOf live :=
  ⟨rfl, le_rfl, fun _ => rfl⟩

/-- An earlier reading is one of the session after an edit, too. -/
theorem HostTextSession.ReadOf.edited {read live : HostTextSession} (earlier : read.ReadOf live)
    (value : TextEditingValue) :
    read.ReadOf { live with value, valueRevision := live.valueRevision + 1 } := by
  have older := earlier.revision
  refine ⟨earlier.id, Nat.le_succ_of_le older, fun same => ?_⟩
  have same : read.valueRevision = live.valueRevision + 1 := same
  omega

/-- The value of the last edit in a queue, or the given one. -/
def lastEdit (queue : List NativeEdit) (value : TextEditingValue) : TextEditingValue :=
  queue.foldl (fun _ edit => edit.value) value

@[simp] theorem last_edit_nil (value : TextEditingValue) : lastEdit [] value = value := rfl

@[simp] theorem last_edit_cons (edit : NativeEdit) (rest : List NativeEdit)
    (value : TextEditingValue) : lastEdit (edit :: rest) value = lastEdit rest edit.value := rfl

theorem last_edit_of_ne_nil {queue : List NativeEdit} (nonempty : queue ≠ [])
    (value other : TextEditingValue) : lastEdit queue value = lastEdit queue other := by
  cases queue with
  | nil => exact absurd rfl nonempty
  | cons => rfl

@[simp] theorem last_edit_append (queue : List NativeEdit) (edit : NativeEdit)
    (value : TextEditingValue) : lastEdit (queue ++ [edit]) value = edit.value := by
  rw [lastEdit, List.foldl_append]
  rfl

/-- The platform thread is going to hand over the value of this revision, or to look
for what there is to hand over. -/
def SyncPoint.carries : SyncPoint → Nat → Prop
  | .planning, _ | .scheduling, _ | .posting, _ => True
  | .updating _ session _ _, revision => session.valueRevision = revision
  | _, _ => False

namespace TextSystem

/-- A synchronization that will see the session as it is now is queued or about to
be queued by the UI. -/
def queued (system : TextSystem) : Prop := system.queuedSyncs ≠ 0 ∨ system.ui ≠ .idle

/-- A queued edit was made in the native session the host knows. -/
def heard (text : TextInputState) (live : HostTextSession) (edit : NativeEdit) : Prop :=
  edit.session = live.id ∧ edit.service = text.serviceGeneration ∧
    edit.callbackGeneration = text.nativeCallbackGeneration

/-- What a point of `synchronize_text_input` after the adoption promises. -/
def PointSound (system : TextSystem) (live : HostTextSession) (native : NativeText) :
    SyncPoint → Prop
  | .idle | .planning | .scheduling | .posting | .rectUpdating .. | .rectMarking .. => True
  | .updating target read service _ =>
    target = native.id ∧ service = system.host.text.nativeServiceGeneration ∧ read.ReadOf live ∧
      (read.valueRevision < live.valueRevision →
        system.host.text.nativeValueRevision < read.valueRevision → system.queued)
  | .marking target read service _ =>
    target = native.id ∧ service = system.host.text.nativeServiceGeneration ∧ read.ReadOf live ∧
      (read.valueRevision = live.valueRevision →
        native.value = lastEdit system.uiQueue live.value)
  | .stopping .. | .starting .. | .accepting .. | .rejecting .. => False

/-- The host has adopted the native session. Its value is the session's once the
queued edits have run, or a newer session value is still on its way to it. -/
structure Adopted (system : TextSystem) (live : HostTextSession) (native : NativeText) : Prop where
  held : system.native = some native
  known : system.host.text.nativeSession = native.id
  started : native.id ≠ 0
  backend : system.host.text.nativeBackend = system.host.text.backend
  service : system.host.text.nativeServiceGeneration = system.host.text.serviceGeneration
  owner : system.host.text.nativePublicSession = live.id
  reports : heard system.host.text live ⟨native.session, native.service, native.callbackGeneration,
    native.value⟩
  edits : ∀ edit ∈ system.uiQueue, heard system.host.text live edit
  revision : system.host.text.nativeValueRevision ≤ live.valueRevision
  point : system.PointSound live native system.platform
  agree : native.value = lastEdit system.uiQueue live.value ∨
    (system.uiQueue = [] ∧ system.host.text.nativeValueRevision < live.valueRevision ∧
      (system.queued ∨ system.platform.carries live.valueRevision))

/-- No native session has been started yet. -/
structure Unstarted (system : TextSystem) (live : HostTextSession) : Prop where
  held : system.native = none
  unknown : system.host.text.nativeSession = 0
  edits : system.uiQueue = []
  point : system.platform = .idle ∨ system.platform = .planning ∨
    ∃ backend read service callbackGeneration,
      system.platform = .starting backend read service callbackGeneration ∧
      system.host.text.backend = some backend ∧
      system.host.text.serviceGeneration = service ∧ read.ReadOf live

/-- A native session has been started and the host has yet to adopt it. -/
structure Adopting (system : TextSystem) (live : HostTextSession) (native : NativeText) : Prop where
  held : system.native = some native
  unknown : system.host.text.nativeSession = 0
  started : native.id ≠ 0
  owner : native.session = live.id
  service : native.service = system.host.text.serviceGeneration
  edits : ∀ edit ∈ system.uiQueue, edit.session = live.id ∧
    edit.service = system.host.text.serviceGeneration ∧
    edit.callbackGeneration = native.callbackGeneration
  point : ∃ backend read,
    system.platform = .accepting backend read native.service native.callbackGeneration native.id ∧
    system.host.text.backend = some backend ∧ read.ReadOf live ∧
    native.value = lastEdit system.uiQueue read.value

/-- A live session on a running window, in one of its three phases. A pending
synchronization has been queued or is about to be. -/
structure Live (system : TextSystem) (live : HostTextSession) : Prop where
  running : system.host.running = true
  session : system.host.text.session = some live
  client : live.client = true
  backend : system.host.text.backend.isSome
  pending : system.host.text.syncPending = true →
    system.queuedSyncs ≠ 0 ∨ system.ui = .posting ∨ system.platform = .posting
  phase : system.Unstarted live ∨ (∃ native, system.Adopting live native) ∨
    ∃ native, system.Adopted live native

/-- The session is over, or it is sound. -/
def Sound (system : TextSystem) : Prop :=
  system.host.text.session = none ∨ ∃ live, system.Live live

/-- Once the session is over it stays so. -/
theorem step_over {system next : TextSystem} {action : Action}
    (ended : system.host.text.session = none) (stepped : system.step action = some next) :
    next.host.text.session = none := by
  have dead : ∀ session, system.host.liveSession session = none := by
    intro session
    rw [liveSession, ended]
    split <;> rfl
  have schedule : (system.host.scheduleTextSyncLocked).2.text.session = none := by
    unfold scheduleTextSyncLocked
    split <;> exact ended
  cases action with
  | updateEditingState session value =>
    simp only [step, Option.ite_none_right_eq_some, updateEditingStateLocked, dead, proxyCall,
      Option.some.injEq] at stepped
    obtain ⟨_, rfl⟩ := stepped
    exact ended
  | setEditableRect session rect =>
    simp only [step, Option.ite_none_right_eq_some, setEditableRectLocked, dead, proxyCall,
      Option.some.injEq] at stepped
    obtain ⟨_, rfl⟩ := stepped
    exact ended
  | nativeEdit value =>
    simp only [step] at stepped
    split at stepped
    · cases stepped
    · simp only [Option.ite_none_right_eq_some, Option.some.injEq] at stepped
      obtain ⟨_, rfl⟩ := stepped
      exact ended
  | runEdit =>
    simp only [step] at stepped
    split at stepped
    · cases stepped
    · simp only [Option.ite_none_right_eq_some, Option.some.injEq] at stepped
      obtain ⟨_, rfl⟩ := stepped
      simp only [runEdit, updateEditingValueLocked, dead]
      exact ended
  | continueUi =>
    simp only [step] at stepped
    split at stepped
    · cases stepped
    · split at stepped
      all_goals
        rename_i host scheduled
        rw [scheduled] at schedule
        cases stepped
        exact schedule
    · cases stepped
      exact ended
  | runSync =>
    have stopped : (system.host.syncStopLocked).2.text.session = none := by
      simp only [syncStopLocked, ended]
      split <;> rfl
    simp only [step] at stepped
    split at stepped
    · cases stepped
    · simp only [Option.ite_none_right_eq_some] at stepped
      obtain ⟨_, stepped⟩ := stepped
      split at stepped
      all_goals
        rename_i host scheduled
        rw [scheduled] at stopped
        cases stepped
        exact stopped
  | nativeStarts started =>
    simp only [step] at stepped
    split at stepped
    · simp only [Option.ite_none_right_eq_some, Option.some.injEq] at stepped
      obtain ⟨_, rfl⟩ := stepped
      exact ended
    · cases stepped
  | continuePlatform =>
    simp only [step, continuePlatform] at stepped
    split at stepped
    · cases stepped
    · cases stepped
    · cases stepped
      exact ended
    · simp only [syncPlanLocked, ended] at stepped
      cases stepped
      exact ended
    · simp only [syncAcceptLocked, dead, Option.isNone_none, if_true] at stepped
      cases stepped
      exact ended
    · cases stepped
      exact ended
    · split at stepped
      all_goals
        rename_i host scheduled
        rw [scheduled] at schedule
        cases stepped
        exact schedule
    · cases stepped
      exact ended
    · cases stepped
      exact ended
    · cases stepped
      simp only [syncValueDoneLocked]
      split <;> exact ended
    · cases stepped
      exact ended
    · cases stepped
      simp only [syncRectDoneLocked]
      split <;> exact ended

/-- A point keeps its promise through a change of the system that leaves the native
session the same. -/
theorem PointSound.map {system next : TextSystem} {live changed : HostTextSession}
    {native held : NativeText} {point : SyncPoint} (sound : system.PointSound live native point)
    (id : held.id = native.id)
    (service : next.host.text.nativeServiceGeneration = system.host.text.nativeServiceGeneration)
    (reads : ∀ read : HostTextSession, read.ReadOf live → read.ReadOf changed)
    (queued : ∀ read : HostTextSession, read.ReadOf live →
      (read.valueRevision < live.valueRevision →
        system.host.text.nativeValueRevision < read.valueRevision → system.queued) →
      read.valueRevision < changed.valueRevision →
        next.host.text.nativeValueRevision < read.valueRevision → next.queued)
    (handed : ∀ read : HostTextSession, read.ReadOf live →
      (read.valueRevision = live.valueRevision →
        native.value = lastEdit system.uiQueue live.value) →
      read.valueRevision = changed.valueRevision →
        held.value = lastEdit next.uiQueue changed.value) :
    next.PointSound changed held point := by
  cases point with
  | updating target read service' updateRect =>
    obtain ⟨target, same, earlier, behind⟩ := sound
    exact ⟨target.trans id.symm, same.trans service.symm, reads read earlier,
      queued read earlier behind⟩
  | marking target read service' updateRect =>
    obtain ⟨target, same, earlier, agree⟩ := sound
    exact ⟨target.trans id.symm, same.trans service.symm, reads read earlier,
      handed read earlier agree⟩
  | idle | planning | scheduling | posting | rectUpdating | rectMarking => trivial
  | stopping | starting | accepting | rejecting => exact sound

/-- The application changes the session: its value under the next revision, or
nothing that the native value depends on. -/
theorem Live.session_changed {system : TextSystem} {live changed : HostTextSession}
    (sound : system.Live live) (idle : system.ui = .idle) (id : changed.id = live.id)
    (client : changed.client = live.client)
    (newer : (changed.valueRevision = live.valueRevision ∧ changed.value = live.value) ∨
      changed.valueRevision = live.valueRevision + 1) :
    Live { system with
      host := { system.host with text := { system.host.text with session := some changed } }
      ui := .scheduling } changed := by
  have reads : ∀ read : HostTextSession, read.ReadOf live → read.ReadOf changed := by
    intro read earlier
    have older := earlier.revision
    refine ⟨earlier.id.trans id.symm, by omega, fun same => ?_⟩
    rcases newer with ⟨revision, value⟩ | revision
    · exact (earlier.value (by omega)).trans value.symm
    · omega
  have working : SchedulePoint.scheduling ≠ .idle := by decide
  refine ⟨sound.running, rfl, client.trans sound.client, sound.backend, fun pending => ?_, ?_⟩
  · rcases sound.pending pending with queued | posting | posting
    · exact Or.inl queued
    · rw [idle] at posting
      cases posting
    · exact Or.inr (Or.inr posting)
  rcases sound.phase with unstarted | ⟨native, adopting⟩ | ⟨native, adopted⟩
  · refine Or.inl ⟨unstarted.held, unstarted.unknown, unstarted.edits, ?_⟩
    rcases unstarted.point with point | point | ⟨backend, read, service, callback, point, set, at_service, earlier⟩
    · exact Or.inl point
    · exact Or.inr (Or.inl point)
    · exact Or.inr (Or.inr
        ⟨backend, read, service, callback, point, set, at_service, reads read earlier⟩)
  · obtain ⟨backend, read, point, set, earlier, value⟩ := adopting.point
    refine Or.inr (Or.inl ⟨native, adopting.held, adopting.unknown, adopting.started,
      adopting.owner.trans id.symm, adopting.service, fun edit queued => ?_,
      backend, read, point, set, reads read earlier, value⟩)
    rw [id]
    exact adopting.edits edit queued
  · have known := adopted.revision
    refine Or.inr (Or.inr ⟨native, adopted.held, adopted.known, adopted.started, adopted.backend,
      adopted.service, adopted.owner.trans id.symm, ?_, fun edit queued => ?_, ?_, ?_, ?_⟩)
    · have reports := adopted.reports
      rw [heard, ← id] at reports
      exact reports
    · have reports := adopted.edits edit queued
      rw [heard, ← id] at reports
      exact reports
    · show system.host.text.nativeValueRevision ≤ changed.valueRevision
      omega
    · refine adopted.point.map rfl rfl reads (fun _ _ _ _ _ => Or.inr working) ?_
      intro read earlier handed same
      have older := earlier.revision
      rcases newer with ⟨revision, value⟩ | revision
      · rw [value]
        exact handed (by omega)
      · omega
    · rcases newer with ⟨revision, value⟩ | revision
      · rw [value, revision]
        rcases adopted.agree with agree | ⟨drained, behind, _⟩
        · exact Or.inl agree
        · exact Or.inr ⟨drained, behind, Or.inl (Or.inr working)⟩
      · by_cases drained : system.uiQueue = []
        · refine Or.inr ⟨drained, ?_, Or.inl (Or.inr working)⟩
          show system.host.text.nativeValueRevision < changed.valueRevision
          omega
        · rcases adopted.agree with agree | ⟨empty, _⟩
          · exact Or.inl (agree.trans (last_edit_of_ne_nil drained _ _))
          · exact absurd empty drained

/-- The native side edits its value and the edit is posted to the UI. -/
theorem Live.native_edit {system : TextSystem} {live : HostTextSession} {native : NativeText}
    (sound : system.Live live) (held : system.native = some native) (value : TextEditingValue) :
    Live { system with
      native := some { native with value }
      uiQueue := system.uiQueue ++
        [⟨native.session, native.service, native.callbackGeneration, value⟩] } live := by
  have newest : ∀ base, value = lastEdit (system.uiQueue ++
      [⟨native.session, native.service, native.callbackGeneration, value⟩]) base := by
    intro base
    rw [last_edit_append]
  refine ⟨sound.running, sound.session, sound.client, sound.backend, sound.pending, ?_⟩
  rcases sound.phase with unstarted | ⟨native', adopting⟩ | ⟨native', adopted⟩
  · have none_held := unstarted.held
    rw [held] at none_held
    cases none_held
  · cases held.symm.trans adopting.held
    obtain ⟨backend, read, point, set, earlier, _⟩ := adopting.point
    refine Or.inr (Or.inl ⟨_, rfl, adopting.unknown, adopting.started, adopting.owner,
      adopting.service, fun edit queued => ?_, backend, read, point, set, earlier, newest _⟩)
    rcases List.mem_append.mp queued with queued | last
    · exact adopting.edits edit queued
    · cases List.mem_singleton.mp last
      exact ⟨adopting.owner, adopting.service, rfl⟩
  · cases held.symm.trans adopted.held
    refine Or.inr (Or.inr ⟨_, rfl, adopted.known, adopted.started, adopted.backend,
      adopted.service, adopted.owner, adopted.reports, fun edit queued => ?_, adopted.revision, ?_,
      Or.inl (newest _)⟩)
    · rcases List.mem_append.mp queued with queued | last
      · exact adopted.edits edit queued
      · cases List.mem_singleton.mp last
        exact adopted.reports
    · exact adopted.point.map rfl rfl (fun _ earlier => earlier)
        (fun _ _ behind => behind) fun _ _ _ _ => newest _

/-- The UI takes an edit of the adopted session: both sides now have its value, up
to the edits behind it. -/
theorem Adopted.edit_accepted {system : TextSystem} {live : HostTextSession} {native : NativeText}
    {edit : NativeEdit} {rest : List NativeEdit} (sound : system.Live live)
    (adopted : system.Adopted live native) (queued : system.uiQueue = edit :: rest) :
    Live { system with
      uiQueue := rest
      host := { system.host with
        text := { system.host.text with
          session := some
            { live with value := edit.value, valueRevision := live.valueRevision + 1 }
          nativeValueRevision := live.valueRevision + 1 } } }
      { live with value := edit.value, valueRevision := live.valueRevision + 1 } := by
  have agree : native.value = lastEdit rest edit.value := by
    rcases adopted.agree with agree | ⟨drained, _⟩
    · rw [queued] at agree
      exact agree
    · rw [queued] at drained
      cases drained
  refine ⟨sound.running, rfl, sound.client, sound.backend, sound.pending, Or.inr (Or.inr ⟨native,
    adopted.held, adopted.known, adopted.started, adopted.backend, adopted.service, adopted.owner,
    adopted.reports, fun other behind => ?_, le_rfl, ?_, Or.inl agree⟩)⟩
  · apply adopted.edits
    rw [queued]
    exact List.mem_cons_of_mem _ behind
  · refine adopted.point.map rfl rfl (fun _ earlier => earlier.edited _) ?_ fun _ _ _ _ => agree
    intro read _ _ older newer
    exact absurd newer (Nat.not_lt.mpr (Nat.le_of_lt older))

/-- Only the synchronizations on their way change, and none is lost. -/
theorem Live.requeued {system : TextSystem} {live : HostTextSession} (sound : system.Live live)
    (syncPending : Bool) (queuedSyncs : Nat) (ui : SchedulePoint)
    (kept : system.queued → queuedSyncs ≠ 0 ∨ ui ≠ .idle ∨ system.platform = .posting)
    (pending : syncPending = true →
      queuedSyncs ≠ 0 ∨ ui = .posting ∨ system.platform = .posting) :
    Live { system with
      host := { system.host with text := { system.host.text with syncPending } }
      queuedSyncs, ui } live := by
  refine ⟨sound.running, sound.session, sound.client, sound.backend, pending, ?_⟩
  rcases sound.phase with unstarted | ⟨native, adopting⟩ | ⟨native, adopted⟩
  · exact Or.inl ⟨unstarted.held, unstarted.unknown, unstarted.edits, unstarted.point⟩
  · exact Or.inr (Or.inl ⟨native, adopting.held, adopting.unknown, adopting.started,
      adopting.owner, adopting.service, adopting.edits, adopting.point⟩)
  · refine Or.inr (Or.inr ⟨native, adopted.held, adopted.known, adopted.started, adopted.backend,
      adopted.service, adopted.owner, adopted.reports, adopted.edits, adopted.revision, ?_, ?_⟩)
    · have point := adopted.point
      show PointSound _ live native system.platform
      cases at_point : system.platform with
      | updating =>
        rw [at_point] at point kept
        refine ⟨point.1, point.2.1, point.2.2.1, fun older newer => ?_⟩
        rcases kept (point.2.2.2 older newer) with queued | working | posting
        · exact Or.inl queued
        · exact Or.inr working
        · cases posting
      | marking =>
        rw [at_point] at point
        exact point
      | idle | planning | scheduling | posting | rectUpdating | rectMarking => trivial
      | stopping | starting | accepting | rejecting =>
        rw [at_point] at point
        exact point
    · rcases adopted.agree with agree | ⟨drained, behind, queued | carried⟩
      · exact Or.inl agree
      · rcases kept queued with queued | working | posting
        · exact Or.inr ⟨drained, behind, Or.inl (Or.inl queued)⟩
        · exact Or.inr ⟨drained, behind, Or.inl (Or.inr working)⟩
        · refine Or.inr ⟨drained, behind, Or.inr ?_⟩
          show system.platform.carries live.valueRevision
          rw [posting]
          trivial
      · exact Or.inr ⟨drained, behind, Or.inr carried⟩

/-- The platform thread moves on within an adopted session. -/
theorem Adopted.moved {system : TextSystem} {live : HostTextSession} {native : NativeText}
    (sound : system.Live live) (adopted : system.Adopted live native) {platform : SyncPoint}
    (point : system.PointSound live native platform)
    (pending : system.host.text.syncPending = true →
      system.queuedSyncs ≠ 0 ∨ system.ui = .posting ∨ platform = .posting)
    (carried : native.value ≠ lastEdit system.uiQueue live.value →
      system.host.text.nativeValueRevision < live.valueRevision →
      system.platform.carries live.valueRevision →
      system.queued ∨ platform.carries live.valueRevision) :
    Live { system with platform } live := by
  refine ⟨sound.running, sound.session, sound.client, sound.backend, pending, Or.inr (Or.inr
    ⟨native, adopted.held, adopted.known, adopted.started, adopted.backend, adopted.service,
      adopted.owner, adopted.reports, adopted.edits, adopted.revision, ?_, ?_⟩)⟩
  · exact point.map rfl rfl (fun _ earlier => earlier) (fun _ _ behind => behind)
      fun _ _ agree => agree
  · by_cases agree : native.value = lastEdit system.uiQueue live.value
    · exact Or.inl agree
    · obtain agree' | ⟨drained, behind, queued | carries⟩ := adopted.agree
      · exact absurd agree' agree
      · exact Or.inr ⟨drained, behind, Or.inl queued⟩
      · exact Or.inr ⟨drained, behind, carried agree behind carries⟩

/-- The native session the host has adopted is current. -/
theorem Adopted.current {system : TextSystem} {live : HostTextSession} {native : NativeText}
    (sound : system.Live live) (adopted : system.Adopted live native) :
    nativeIsCurrent system.host.text = true := by
  simp [nativeIsCurrent, adopted.known, adopted.started, adopted.backend, adopted.service,
    adopted.owner, sound.session]

/-- A synchronization starts: there is nothing to stop, and it goes on to its plan. -/
theorem Live.sync_started {system : TextSystem} {live : HostTextSession} {queuedSyncs : Nat}
    (sound : system.Live live) (idle : system.platform = .idle) :
    ∃ host, system.host.syncStopLocked = (none, host) ∧
      Live { system with host, queuedSyncs, platform := .planning } live := by
  have kept : { system.host.text with
      syncPending := false
      session := system.host.text.session.filter (·.client) } =
      { system.host.text with syncPending := false } := by
    simp [sound.session, sound.client]
  refine ⟨{ system.host with text := { system.host.text with syncPending := false } }, ?_, ?_⟩
  · have unstopped : ¬ (system.host.text.nativeSession ≠ 0 ∧
        ¬ nativeIsCurrent { system.host.text with syncPending := false } = true) := by
      rcases sound.phase with unstarted | ⟨native, adopting⟩ | ⟨native, adopted⟩
      · exact fun stopped => stopped.1 unstarted.unknown
      · exact fun stopped => stopped.1 adopting.unknown
      · exact fun stopped => stopped.2 (adopted.current sound)
    simp only [syncStopLocked, kept]
    rw [if_neg unstopped]
  · refine ⟨sound.running, sound.session, sound.client, sound.backend, ?_, ?_⟩
    · intro pending
      cases pending
    rcases sound.phase with unstarted | ⟨native, adopting⟩ | ⟨native, adopted⟩
    · exact Or.inl ⟨unstarted.held, unstarted.unknown, unstarted.edits, Or.inr (Or.inl rfl)⟩
    · obtain ⟨_, _, point, _⟩ := adopting.point
      rw [idle] at point
      cases point
    · refine Or.inr (Or.inr ⟨native, adopted.held, adopted.known, adopted.started, adopted.backend,
        adopted.service, adopted.owner, adopted.reports, adopted.edits, adopted.revision, trivial, ?_⟩)
      rcases adopted.agree with agree | ⟨drained, behind, _⟩
      · exact Or.inl agree
      · exact Or.inr ⟨drained, behind, Or.inr trivial⟩

/-- The plan for a session without a native one. -/
theorem sync_plan_start {host : HostWindowState} {live : HostTextSession} {backend : Nat}
    (running : host.running = true) (session : host.text.session = some live)
    (installed : host.text.backend = some backend) (unknown : host.text.nativeSession = 0) :
    (∃ failure, host.syncPlanLocked = .error failure) ∨ host.syncPlanLocked =
      .ok (.start backend live host.text.serviceGeneration host.text.nextCallbackGeneration,
        { host with
          text := { host.text with
            nextCallbackGeneration := host.text.nextCallbackGeneration + 1 } }) := by
  unfold syncPlanLocked
  rw [session, installed]
  dsimp only
  rw [if_neg (by simpa using running), if_pos unknown]
  split
  · exact Or.inl ⟨_, rfl⟩
  · exact Or.inr rfl

/-- The plan for a session with a native one. -/
theorem sync_plan_update {host : HostWindowState} {live : HostTextSession} {backend : Nat}
    (running : host.running = true) (session : host.text.session = some live)
    (installed : host.text.backend = some backend) (known : host.text.nativeSession ≠ 0) :
    host.syncPlanLocked =
      .ok (.update host.text.nativeSession live host.text.serviceGeneration
        (host.text.nativeValueRevision < live.valueRevision)
        (live.editableRect.isSome && host.text.nativeRectRevision < live.rectRevision), host) := by
  unfold syncPlanLocked
  rw [session, installed]
  dsimp only
  rw [if_neg (by simpa using running), if_neg known]

/-- The plan of a synchronization: start the native session, or hand over what it
has not seen. -/
theorem Live.planned {system next : TextSystem} {live : HostTextSession} (sound : system.Live live)
    (planning : system.platform = .planning) (stepped : system.continuePlatform = some next) :
    next.Live live := by
  obtain ⟨backend, installed⟩ := Option.isSome_iff_exists.mp sound.backend
  have elsewhere : ∀ {platform : SyncPoint}, system.host.text.syncPending = true →
      system.queuedSyncs ≠ 0 ∨ system.ui = .posting ∨ platform = .posting := by
    intro platform pending
    rcases sound.pending pending with queued | posting | posting
    · exact Or.inl queued
    · exact Or.inr (Or.inl posting)
    · rw [planning] at posting
      cases posting
  simp only [continuePlatform, planning] at stepped
  rcases sound.phase with unstarted | ⟨native, adopting⟩ | ⟨native, adopted⟩
  · obtain ⟨failure, plan⟩ | plan :=
      sync_plan_start sound.running sound.session installed unstarted.unknown
    · rw [plan] at stepped
      cases stepped
      exact ⟨sound.running, sound.session, sound.client, sound.backend, elsewhere,
        Or.inl ⟨unstarted.held, unstarted.unknown, unstarted.edits, Or.inl rfl⟩⟩
    · rw [plan] at stepped
      cases stepped
      exact ⟨sound.running, sound.session, sound.client, sound.backend, elsewhere,
        Or.inl ⟨unstarted.held, unstarted.unknown, unstarted.edits, Or.inr (Or.inr ⟨backend, live, _,
          _, rfl, installed, rfl, HostTextSession.ReadOf.refl live⟩)⟩⟩
  · obtain ⟨_, _, point, _⟩ := adopting.point
    rw [planning] at point
    cases point
  · have known : system.host.text.nativeSession ≠ 0 := by
      rw [adopted.known]
      exact adopted.started
    rw [sync_plan_update sound.running sound.session installed known] at stepped
    cases stepped
    by_cases behind : system.host.text.nativeValueRevision < live.valueRevision
    · rw [decide_eq_true behind]
      refine adopted.moved sound ?_ elsewhere fun _ _ _ => Or.inr rfl
      exact ⟨adopted.known, adopted.service.symm, HostTextSession.ReadOf.refl live,
        fun older => absurd older (Nat.lt_irrefl _)⟩
    · rw [decide_eq_false behind]
      cases live.editableRect.isSome && decide (system.host.text.nativeRectRevision < live.rectRevision) with
      | true => exact adopted.moved sound trivial elsewhere fun _ newer => absurd newer behind
      | false => exact adopted.moved sound trivial elsewhere fun _ newer => absurd newer behind

/-- The backend has started the session: its value is the one that was read. -/
theorem Live.native_started {system : TextSystem} {live read : HostTextSession}
    {backend service callbackGeneration started : Nat} (sound : system.Live live)
    (starting : system.platform = .starting backend read service callbackGeneration)
    (nonzero : started ≠ 0) :
    Live { system with
      native := some ⟨started, read.id, service, callbackGeneration, read.value⟩
      platform := .accepting backend read service callbackGeneration started } live := by
  refine ⟨sound.running, sound.session, sound.client, sound.backend, fun pending => ?_, ?_⟩
  · rcases sound.pending pending with queued | posting | posting
    · exact Or.inl queued
    · exact Or.inr (Or.inl posting)
    · rw [starting] at posting
      cases posting
  rcases sound.phase with unstarted | ⟨native, adopting⟩ | ⟨native, adopted⟩
  · rcases unstarted.point with point | point | ⟨backend', read', service', callback', point, set,
      at_service, earlier⟩
    · rw [starting] at point
      cases point
    · rw [starting] at point
      cases point
    · rw [starting] at point
      cases point
      refine Or.inr (Or.inl ⟨_, rfl, unstarted.unknown, nonzero, earlier.id, at_service.symm, ?_,
        backend, read, rfl, set, earlier, ?_⟩)
      · intro edit queued
        rw [show system.uiQueue = [] from unstarted.edits] at queued
        cases queued
      · show read.value = lastEdit system.uiQueue read.value
        rw [unstarted.edits, last_edit_nil]
  · obtain ⟨_, _, point, _⟩ := adopting.point
    rw [starting] at point
    cases point
  · have point := adopted.point
    rw [starting] at point
    cases point

/-- The host adopts the started session and looks once more for what changed
meanwhile. -/
theorem Live.native_adopted {system next : TextSystem} {live read : HostTextSession}
    {backend service callbackGeneration started : Nat} (sound : system.Live live)
    (accepting : system.platform = .accepting backend read service callbackGeneration started)
    (stepped : system.continuePlatform = some next) : next.Live live := by
  rcases sound.phase with unstarted | ⟨native, adopting⟩ | ⟨native, adopted⟩
  · rcases unstarted.point with point | point | ⟨_, _, _, _, point, _⟩
    all_goals
      rw [accepting] at point
      cases point
  · obtain ⟨backend', read', point, installed, earlier, value⟩ := adopting.point
    rw [accepting] at point
    cases point
    have served : (system.host.liveSession read.id).isNone = false := by
      simp [liveSession, sound.running, sound.session, earlier.id]
    have current : ¬ (system.host.text.serviceGeneration ≠ native.service ∨
        system.host.text.backend ≠ some backend ∨ system.host.text.nativeSession ≠ 0) := by
      simp [adopting.service, installed, adopting.unknown]
    simp only [continuePlatform, accepting, syncAcceptLocked, served, Bool.false_eq_true,
      if_false] at stepped
    rw [if_neg current] at stepped
    cases stepped
    refine ⟨sound.running, sound.session, sound.client, sound.backend, fun pending => ?_,
      Or.inr (Or.inr ⟨native, adopting.held, rfl, adopting.started, installed.symm,
        adopting.service, earlier.id, ⟨adopting.owner, adopting.service, rfl⟩, adopting.edits,
        earlier.revision, trivial, ?_⟩)⟩
    · rcases sound.pending pending with queued | posting | posting
      · exact Or.inl queued
      · exact Or.inr (Or.inl posting)
      · rw [accepting] at posting
        cases posting
    · by_cases drained : system.uiQueue = []
      · rcases Nat.lt_or_eq_of_le earlier.revision with behind | same
        · exact Or.inr ⟨drained, behind, Or.inr trivial⟩
        · rw [earlier.value same] at value
          exact Or.inl value
      · exact Or.inl (value.trans (last_edit_of_ne_nil drained _ _))
  · have point := adopted.point
    rw [accepting] at point
    cases point

/-- The points after the adoption belong to an adopted session. -/
theorem Live.adopted {system : TextSystem} {live : HostTextSession} (sound : system.Live live)
    (later : system.platform ≠ .idle) (planned : system.platform ≠ .planning)
    (unstarted : ∀ backend read service callbackGeneration,
      system.platform ≠ .starting backend read service callbackGeneration)
    (accepted : ∀ backend read service callbackGeneration started,
      system.platform ≠ .accepting backend read service callbackGeneration started) :
    ∃ native, system.Adopted live native := by
  rcases sound.phase with fresh | ⟨native, adopting⟩ | adopted
  · rcases fresh.point with point | point | ⟨_, _, _, _, point, _⟩
    · exact absurd point later
    · exact absurd point planned
    · exact absurd point (unstarted _ _ _ _)
  · obtain ⟨_, _, point, _⟩ := adopting.point
    exact absurd point (accepted _ _ _ _ _)
  · exact adopted

/-- A pending synchronization stays on its way when the platform thread leaves a
point that does not post it. -/
theorem Live.pending_elsewhere {system : TextSystem} {live : HostTextSession}
    (sound : system.Live live) (elsewhere : system.platform ≠ .posting) (platform : SyncPoint)
    (pending : system.host.text.syncPending = true) :
    system.queuedSyncs ≠ 0 ∨ system.ui = .posting ∨ platform = .posting := by
  rcases sound.pending pending with queued | posting | posting
  · exact Or.inl queued
  · exact Or.inr (Or.inl posting)
  · exact absurd posting elsewhere

/-- The application's value replaces the native one, which nobody has edited since
the value was read. -/
theorem Live.value_handed_over {system : TextSystem} {live read : HostTextSession}
    {target service : Nat} {updateRect : Bool} (sound : system.Live live)
    (updating : system.platform = .updating target read service updateRect)
    (unheard : ∀ edit ∈ system.uiQueue,
      edit.callbackGeneration ≠ system.host.text.nativeCallbackGeneration)
    (newer : system.host.text.nativeValueRevision < read.valueRevision) :
    Live { system.nativeUpdate target read.value with
      platform := .marking target read service updateRect } live := by
  obtain ⟨native, adopted⟩ := sound.adopted (by rw [updating]; simp) (by rw [updating]; simp)
    (by rw [updating]; simp) (by rw [updating]; simp)
  have point := adopted.point
  rw [updating] at point
  obtain ⟨rfl, same_service, earlier, queued⟩ := point
  have drained : system.uiQueue = [] := by
    cases queue : system.uiQueue with
    | nil => rfl
    | cons edit rest =>
      have first : edit ∈ system.uiQueue := by
        rw [queue]
        exact List.mem_cons_self
      exact absurd (adopted.edits edit first).2.2 (unheard edit first)
  have replaced : (system.nativeUpdate native.id read.value).native =
      some { native with value := read.value } := by
    simp [nativeUpdate, adopted.held]
  refine ⟨sound.running, sound.session, sound.client, sound.backend,
    sound.pending_elsewhere (by rw [updating]; simp) _, Or.inr (Or.inr
    ⟨{ native with value := read.value }, replaced, adopted.known, adopted.started, adopted.backend,
      adopted.service, adopted.owner, adopted.reports, adopted.edits, adopted.revision, ?_, ?_⟩)⟩
  · refine ⟨rfl, same_service, earlier, fun same => ?_⟩
    show read.value = lastEdit system.uiQueue live.value
    rw [drained, last_edit_nil]
    exact earlier.value same
  · rcases Nat.lt_or_eq_of_le earlier.revision with behind | same
    · refine Or.inr ⟨drained, ?_, Or.inl (queued behind newer)⟩
      show system.host.text.nativeValueRevision < live.valueRevision
      omega
    · refine Or.inl ?_
      show read.value = lastEdit system.uiQueue live.value
      rw [drained, last_edit_nil]
      exact earlier.value same

/-- The host notes the revision it has handed over. -/
theorem Live.value_marked {system : TextSystem} {live read : HostTextSession}
    {target service : Nat} {updateRect : Bool} (sound : system.Live live)
    (marking : system.platform = .marking target read service updateRect) :
    Live { system with
      host := system.host.syncValueDoneLocked target read service
      platform := afterValue target read service updateRect } live := by
  obtain ⟨native, adopted⟩ := sound.adopted (by rw [marking]; simp) (by rw [marking]; simp)
    (by rw [marking]; simp) (by rw [marking]; simp)
  have point := adopted.point
  rw [marking] at point
  obtain ⟨rfl, same_service, earlier, handed⟩ := point
  have done : system.host.syncValueDoneLocked native.id read service =
      { system.host with
        text := { system.host.text with nativeValueRevision := read.valueRevision } } := by
    rw [syncValueDoneLocked, if_pos ⟨adopted.known, same_service.symm⟩]
  rw [done]
  refine ⟨sound.running, sound.session, sound.client, sound.backend,
    sound.pending_elsewhere (by rw [marking]; simp) _, Or.inr (Or.inr
    ⟨native, adopted.held, adopted.known, adopted.started, adopted.backend, adopted.service,
      adopted.owner, adopted.reports, adopted.edits, earlier.revision, ?_, ?_⟩)⟩
  · cases updateRect <;> trivial
  · rcases Nat.lt_or_eq_of_le earlier.revision with behind | same
    · rcases adopted.agree with agree | ⟨drained, _, queued | carried⟩
      · exact Or.inl agree
      · exact Or.inr ⟨drained, behind, Or.inl queued⟩
      · rw [marking] at carried
        cases carried
    · exact Or.inl (handed same)

/-- On a running window a synchronization is already pending, or becomes so. -/
theorem schedule_text_sync_cases {host : HostWindowState} (running : host.running = true) :
    (host.text.syncPending = true ∧ host.scheduleTextSyncLocked = (false, host)) ∨
    (host.text.syncPending = false ∧ host.scheduleTextSyncLocked =
      (true, { host with text := { host.text with syncPending := true } })) := by
  unfold scheduleTextSyncLocked
  cases pending : host.text.syncPending with
  | true => exact Or.inl ⟨rfl, by simp⟩
  | false => exact Or.inr ⟨rfl, by simp [running]⟩

/-- The platform thread schedules the synchronization after an adoption. -/
theorem Live.sync_scheduled {system next : TextSystem} {live : HostTextSession}
    (sound : system.Live live) (scheduling : system.platform = .scheduling)
    (stepped : system.continuePlatform = some next) : next.Live live := by
  obtain ⟨native, adopted⟩ := sound.adopted (by rw [scheduling]; simp) (by rw [scheduling]; simp)
    (by rw [scheduling]; simp) (by rw [scheduling]; simp)
  have elsewhere := sound.pending_elsewhere (by rw [scheduling]; simp)
  simp only [continuePlatform, scheduling] at stepped
  obtain ⟨pending, done⟩ | ⟨_, done⟩ := schedule_text_sync_cases sound.running
  · rw [done] at stepped
    cases stepped
    refine adopted.moved sound trivial (elsewhere _) fun _ _ _ => Or.inl ?_
    rcases elsewhere .idle pending with queued | posting | posting
    · exact Or.inl queued
    · exact Or.inr (by rw [posting]; simp)
    · cases posting
  · rw [done] at stepped
    cases stepped
    have moved : Live { system with platform := .posting } live :=
      adopted.moved sound trivial (elsewhere _) fun _ _ _ => Or.inr trivial
    exact moved.requeued true system.queuedSyncs system.ui (fun _ => Or.inr (Or.inr rfl))
      fun _ => Or.inr (Or.inr rfl)

/-- The platform thread posts the synchronization. -/
theorem Live.sync_posted {system : TextSystem} {live : HostTextSession} (sound : system.Live live)
    (posting : system.platform = .posting) :
    Live { system with queuedSyncs := system.queuedSyncs + 1, platform := .idle } live := by
  have posted := sound.requeued system.host.text.syncPending (system.queuedSyncs + 1) system.ui
    (fun _ => Or.inl (Nat.succ_ne_zero _)) fun _ => Or.inl (Nat.succ_ne_zero _)
  obtain ⟨native, adopted⟩ := posted.adopted (by rw [posting]; simp) (by rw [posting]; simp)
    (by rw [posting]; simp) (by rw [posting]; simp)
  exact adopted.moved posted trivial (fun _ => Or.inl (Nat.succ_ne_zero _))
    fun _ _ _ => Or.inl (Or.inl (Nat.succ_ne_zero _))

/-- The rectangle is handed over. -/
theorem Live.rect_handed_over {system : TextSystem} {live read : HostTextSession}
    {target service : Nat} (sound : system.Live live)
    (updating : system.platform = .rectUpdating target read service) :
    Live { system with platform := .rectMarking target read service } live := by
  obtain ⟨native, adopted⟩ := sound.adopted (by rw [updating]; simp) (by rw [updating]; simp)
    (by rw [updating]; simp) (by rw [updating]; simp)
  refine adopted.moved sound trivial (sound.pending_elsewhere (by rw [updating]; simp) _) ?_
  intro _ _ carried
  rw [updating] at carried
  cases carried

theorem Live.rect_marked {system : TextSystem} {live read : HostTextSession}
    {target service : Nat} (sound : system.Live live)
    (marking : system.platform = .rectMarking target read service) :
    Live { system with
      host := system.host.syncRectDoneLocked target read service, platform := .idle } live := by
  obtain ⟨native, adopted⟩ := sound.adopted (by rw [marking]; simp) (by rw [marking]; simp)
    (by rw [marking]; simp) (by rw [marking]; simp)
  have agree : native.value = lastEdit system.uiQueue live.value ∨
      (system.uiQueue = [] ∧ system.host.text.nativeValueRevision < live.valueRevision ∧
        (system.queued ∨ SyncPoint.idle.carries live.valueRevision)) := by
    rcases adopted.agree with agree | ⟨drained, behind, queued | carried⟩
    · exact Or.inl agree
    · exact Or.inr ⟨drained, behind, Or.inl queued⟩
    · rw [marking] at carried
      cases carried
  have elsewhere := sound.pending_elsewhere (by rw [marking]; simp) .idle
  unfold syncRectDoneLocked
  split
  all_goals
    exact ⟨sound.running, sound.session, sound.client, sound.backend, elsewhere, Or.inr (Or.inr
      ⟨native, adopted.held, adopted.known, adopted.started, adopted.backend, adopted.service,
        adopted.owner, adopted.reports, adopted.edits, adopted.revision, trivial, agree⟩)⟩

/-- Whether a step keeps clear of the races. A value is handed over only when no
edit of the native session waits for the UI or was accepted after the value was read;
an edit made while the session is being started waits until the host has adopted it. -/
def keepsClear (system : TextSystem) : Action → Bool
  | .continuePlatform =>
    match system.platform with
    | .updating _ read _ _ =>
      system.uiQueue.all
        (·.callbackGeneration ≠ system.host.text.nativeCallbackGeneration) &&
        (system.host.text.nativeValueRevision < read.valueRevision)
    | _ => true
  | .runEdit =>
    match system.platform, system.uiQueue with
    | .accepting _ _ _ callbackGeneration _, edit :: _ => edit.callbackGeneration ≠ callbackGeneration
    | _, _ => true
  | _ => true

/-- What the platform thread does next keeps a live session sound. -/
theorem Live.continue_platform {system next : TextSystem} {live : HostTextSession}
    (sound : system.Live live) (clear : system.keepsClear .continuePlatform = true)
    (stepped : system.continuePlatform = some next) : next.Live live := by
  cases point : system.platform with
  | idle | starting =>
    simp only [continuePlatform, point] at stepped
    cases stepped
  | stopping | rejecting =>
    obtain ⟨native, adopted⟩ := sound.adopted (by rw [point]; simp) (by rw [point]; simp)
      (by rw [point]; simp) (by rw [point]; simp)
    have impossible := adopted.point
    rw [point] at impossible
    cases impossible
  | planning => exact sound.planned point stepped
  | accepting => exact sound.native_adopted point stepped
  | scheduling => exact sound.sync_scheduled point stepped
  | posting =>
    simp only [continuePlatform, point] at stepped
    cases stepped
    exact sound.sync_posted point
  | updating =>
    simp only [keepsClear, point, Bool.and_eq_true, List.all_eq_true, decide_eq_true_eq] at clear
    simp only [continuePlatform, point] at stepped
    cases stepped
    exact sound.value_handed_over point clear.1 clear.2
  | marking =>
    simp only [continuePlatform, point] at stepped
    cases stepped
    exact sound.value_marked point
  | rectUpdating =>
    simp only [continuePlatform, point] at stepped
    cases stepped
    exact sound.rect_handed_over point
  | rectMarking =>
    simp only [continuePlatform, point] at stepped
    cases stepped
    exact sound.rect_marked point

/-- The UI takes an edit: it is the adopted session's, or the window ran out of
revisions. -/
theorem Live.run_edit {system : TextSystem} {live : HostTextSession} {edit : NativeEdit}
    {rest : List NativeEdit} (sound : system.Live live) (queued : system.uiQueue = edit :: rest)
    (clear : system.keepsClear .runEdit = true) :
    Sound ({ system with uiQueue := rest }.runEdit edit) := by
  have first : edit ∈ system.uiQueue := by
    rw [queued]
    exact List.mem_cons_self
  rcases sound.phase with unstarted | ⟨native, adopting⟩ | ⟨native, adopted⟩
  · rw [unstarted.edits] at queued
    cases queued
  · obtain ⟨backend, read, point, _⟩ := adopting.point
    simp only [keepsClear, point, queued, ne_eq, decide_eq_true_eq] at clear
    exact absurd (adopting.edits edit first).2.2 clear
  · obtain ⟨own, service, callback⟩ := adopted.edits edit first
    have served : system.host.liveSession edit.session = some live := by
      simp [liveSession, sound.running, sound.session, own]
    have current : ¬ (system.host.text.serviceGeneration ≠ edit.service ∨
        system.host.text.nativeCallbackGeneration ≠ edit.callbackGeneration) := by
      simp [service, callback]
    simp only [runEdit, updateEditingValueLocked, served]
    rw [if_neg current, if_neg (by simpa using sound.client)]
    by_cases spent : live.valueRevision = maxGeneration
    · rw [if_pos spent]
      exact Or.inl rfl
    · rw [if_neg spent]
      exact Or.inr ⟨_, adopted.edit_accepted sound queued⟩

/-- Every step that keeps clear of the races keeps the session sound. -/
theorem step_sound {system next : TextSystem} {action : Action} (sound : system.Sound)
    (clear : system.keepsClear action = true) (stepped : system.step action = some next) :
    next.Sound := by
  obtain ended | ⟨live, sound⟩ := sound
  · exact Or.inl (step_over ended stepped)
  have served : ∀ session, system.host.liveSession session = none ∨
      system.host.liveSession session = some live := by
    intro session
    by_cases same : live.id = session
    · exact Or.inr (by simp [liveSession, sound.running, sound.session, same])
    · exact Or.inl (by simp [liveSession, sound.running, sound.session, same])
  cases action with
  | updateEditingState session value =>
    simp only [step, Option.ite_none_right_eq_some, Option.some.injEq] at stepped
    obtain ⟨idle, rfl⟩ := stepped
    unfold updateEditingStateLocked
    rcases served session with unserved | served
    · rw [unserved]
      exact Or.inr ⟨live, sound⟩
    · rw [served]
      dsimp only
      split
      · exact Or.inr ⟨live, sound⟩
      · split
        · exact Or.inr ⟨live, sound⟩
        · exact Or.inr ⟨_, sound.session_changed idle rfl rfl (Or.inr rfl)⟩
  | setEditableRect session rect =>
    simp only [step, Option.ite_none_right_eq_some, Option.some.injEq] at stepped
    obtain ⟨idle, rfl⟩ := stepped
    unfold setEditableRectLocked
    rcases served session with unserved | served
    · rw [unserved]
      exact Or.inr ⟨live, sound⟩
    · rw [served]
      dsimp only
      split
      · exact Or.inr ⟨live, sound⟩
      · split
        · exact Or.inr ⟨live, sound⟩
        · exact Or.inr ⟨_, sound.session_changed idle rfl rfl (Or.inl ⟨rfl, rfl⟩)⟩
  | nativeEdit value =>
    simp only [step] at stepped
    split at stepped
    · cases stepped
    · rename_i native held
      simp only [Option.ite_none_right_eq_some, Option.some.injEq] at stepped
      obtain ⟨_, rfl⟩ := stepped
      exact Or.inr ⟨live, sound.native_edit held value⟩
  | runEdit =>
    simp only [step] at stepped
    split at stepped
    · cases stepped
    · rename_i edit rest queued
      simp only [Option.ite_none_right_eq_some, Option.some.injEq] at stepped
      obtain ⟨_, rfl⟩ := stepped
      exact sound.run_edit queued clear
  | continueUi =>
    simp only [step] at stepped
    split at stepped
    · cases stepped
    · rename_i scheduling
      obtain ⟨pending, done⟩ | ⟨_, done⟩ := schedule_text_sync_cases sound.running
      · rw [done] at stepped
        cases stepped
        have queued : system.queuedSyncs ≠ 0 ∨ system.platform = .posting := by
          rcases sound.pending pending with queued | posting | posting
          · exact Or.inl queued
          · rw [scheduling] at posting
            cases posting
          · exact Or.inr posting
        exact Or.inr ⟨live, sound.requeued system.host.text.syncPending system.queuedSyncs .idle
          (fun _ => queued.imp_right Or.inr) fun _ => queued.imp_right Or.inr⟩
      · rw [done] at stepped
        cases stepped
        exact Or.inr ⟨live, sound.requeued true system.queuedSyncs .posting
          (fun _ => Or.inr (Or.inl (by decide))) fun _ => Or.inr (Or.inl rfl)⟩
    · cases stepped
      exact Or.inr ⟨live, sound.requeued system.host.text.syncPending (system.queuedSyncs + 1) .idle
        (fun _ => Or.inl (Nat.succ_ne_zero _)) fun _ => Or.inl (Nat.succ_ne_zero _)⟩
  | runSync =>
    simp only [step] at stepped
    split at stepped
    · cases stepped
    · rename_i queuedSyncs _
      simp only [Option.ite_none_right_eq_some] at stepped
      obtain ⟨idle, stepped⟩ := stepped
      obtain ⟨host, stopped, started⟩ := @Live.sync_started system live queuedSyncs sound idle
      rw [stopped] at stepped
      cases stepped
      exact Or.inr ⟨live, started⟩
  | nativeStarts started =>
    simp only [step] at stepped
    split at stepped
    · rename_i backend read service callbackGeneration starting
      simp only [Option.ite_none_right_eq_some, Option.some.injEq] at stepped
      obtain ⟨nonzero, rfl⟩ := stepped
      exact Or.inr ⟨live, sound.native_started starting nonzero⟩
    · cases stepped
  | continuePlatform => exact Or.inr ⟨live, sound.continue_platform clear stepped⟩

end TextSystem

/-- A session that has just been started is sound. -/
theorem text_init_sound {system : TextSystem} (initial : textMachine.init system) :
    system.Sound := by
  obtain ⟨id, logicalSize, physicalWidth, physicalHeight, devicePixelRatio, visible, host, backend,
    configuration, initialValue, session, started, created, start, rfl⟩ := initial
  simp only [createHostWindow] at created
  split at created
  · cases created
  split at created
  · cases created
  cases created
  unfold startTextInputLocked at start
  split at start
  · cases start
  split at start
  · cases start
  split at start
  · cases start
  cases start
  refine Or.inr ⟨_, rfl, rfl, rfl, rfl, fun _ => Or.inl Nat.one_ne_zero,
    Or.inl ⟨rfl, rfl, rfl, Or.inl rfl⟩⟩

/-- In every run that keeps clear of the races, once nothing is queued and no thread
is inside an operation, the native side of a live session holds the session's value. -/
theorem text_values_agree {system : TextSystem}
    (reached : Reaches textMachine (fun system action => system.keepsClear action = true) system)
    (quiet : system.quiet = true) (current : nativeIsCurrent system.host.text = true) :
    ∃ session native, system.host.text.session = some session ∧ system.native = some native ∧
      native.id = system.host.text.nativeSession ∧ native.value = session.value := by
  have sound : system.Sound := reached.invariant TextSystem.Sound
    (fun _ initial => text_init_sound initial)
    fun _ _ _ sound clear stepped => TextSystem.step_sound sound clear stepped
  simp only [TextSystem.quiet, Bool.and_eq_true, List.isEmpty_iff, decide_eq_true_eq] at quiet
  obtain ⟨⟨⟨drained, ui⟩, unqueued⟩, platform⟩ := quiet
  obtain ended | ⟨live, sound⟩ := sound
  · simp [nativeIsCurrent, ended] at current
  rcases sound.phase with unstarted | ⟨native, adopting⟩ | ⟨native, adopted⟩
  · simp [nativeIsCurrent, unstarted.unknown] at current
  · simp [nativeIsCurrent, adopting.unknown] at current
  · refine ⟨live, native, sound.session, adopted.held, adopted.known.symm, ?_⟩
    rcases adopted.agree with agree | ⟨_, _, queued | carried⟩
    · rw [drained] at agree
      exact agree
    · rcases queued with queued | working
      · exact absurd unqueued queued
      · exact absurd ui working
    · rw [platform] at carried
      cases carried

/-- A value of one character with the caret behind it. -/
def typed (character : UInt8) : TextEditingValue := ⟨[character], ⟨1, 1⟩, none⟩

/-- A window whose application has just started a session on an empty value. -/
def startedText : TextSystem where
  host :=
    { id := 1, metrics := ⟨⟨10, 20⟩, 10, 20, 1, 1⟩
      text :=
        { backend := some 1, serviceGeneration := 1, nextSession := 2, syncPending := true
          session := some { id := 1, value := {} } } }
  queuedSyncs := 1

theorem started_text_initial : textMachine.init startedText := by
  have valid : WindowMetrics.valid ⟨⟨10, 20⟩, 10, 20, 1, 1⟩ = true := by decide +kernel
  refine ⟨1, ⟨10, 20⟩, 10, 20, 1, false, { id := 1, metrics := ⟨⟨10, 20⟩, 10, 20, 1, 1⟩ }, 1, {}, {},
    1, { startedText.host with text := { startedText.host.text with syncPending := false } }, ?_,
    rfl, rfl⟩
  simp [createHostWindow, valid]

/-- The session is synchronized, the native side edits, the UI takes the edit, and
then the application answers with a value of its own. -/
def answeredEdit : List TextSystem.Action :=
  [.runSync, .continuePlatform, .nativeStarts 7, .continuePlatform, .continuePlatform,
    .continuePlatform, .runSync, .continuePlatform, .nativeEdit (typed 97), .runEdit,
    .updateEditingState 1 (typed 98), .continueUi, .continueUi, .runSync, .continuePlatform,
    .continuePlatform, .continuePlatform]

theorem answered_edit_agrees :
    ∃ system, textMachine.runGuarded (fun system action => system.keepsClear action = true)
        startedText answeredEdit = some system ∧
      system.host.text.session.map (·.value) = some (typed 98) ∧
      system.native.map (·.value) = some (typed 98) := by
  have observed : (textMachine.runGuarded (fun system action => system.keepsClear action = true)
      startedText answeredEdit).map (fun system => (system.quiet,
        nativeIsCurrent system.host.text, system.host.text.session.map (·.value))) =
      some (true, true, some (typed 98)) := by decide +kernel
  obtain ⟨system, ran, seen⟩ := Option.map_eq_some_iff.mp observed
  simp only [Prod.mk.injEq] at seen
  obtain ⟨quiet, current, answered⟩ := seen
  obtain ⟨session, native, live, held, _, agree⟩ := text_values_agree
    ((Reaches.start started_text_initial).run_guarded ran) quiet current
  refine ⟨system, ran, answered, ?_⟩
  rw [held, Option.map_some, agree]
  rw [live] at answered
  exact answered

/-- The application's value is on its way to the platform when the native side edits.
The value replaces the native edit, and then the edit, taken by the UI, replaces the
value: each side is left with what the other had. -/
theorem crossing_edits_swap :
    ∃ system session native, Reachable textMachine system ∧ system.quiet = true ∧
      nativeIsCurrent system.host.text = true ∧ system.host.text.session = some session ∧
      system.native = some native ∧ native.id = system.host.text.nativeSession ∧
      session.value = typed 97 ∧ native.value = typed 98 := by
  have observed : (textMachine.run startedText
      [.runSync, .continuePlatform, .nativeStarts 7, .continuePlatform, .continuePlatform,
        .continuePlatform, .runSync, .continuePlatform, .updateEditingState 1 (typed 98),
        .continueUi, .continueUi, .nativeEdit (typed 97), .runSync, .continuePlatform,
        .continuePlatform, .continuePlatform, .runEdit]).map (fun system =>
        ((system.quiet, nativeIsCurrent system.host.text),
          system.host.text.session.map (·.value),
          system.native.map (fun native =>
            (decide (native.id = system.host.text.nativeSession), native.value)))) =
      some ((true, true), some (typed 97), some (true, typed 98)) := by decide +kernel
  obtain ⟨system, ran, seen⟩ := Option.map_eq_some_iff.mp observed
  simp only [Prod.mk.injEq, Option.map_eq_some_iff] at seen
  obtain ⟨⟨quiet, current⟩, ⟨session, live, value⟩, native, held, same, edited⟩ := seen
  exact ⟨system, session, native, Reachable.run (.start started_text_initial) ran, quiet, current,
    live, held, of_decide_eq_true same, value, edited⟩

end Dui
