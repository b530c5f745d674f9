import Mathlib.Data.List.Perm.Basic
import Dui.HostCursor

/-! The cursor converges. While the window runs, the pending flag stands for the one
task of the current service, and without it either the backend shows the desired
cursor or its last answer was a refusal of just that revision. -/
namespace Dui
open HostWindowState Transition

/-- The task that a piece of work is about to post. -/
def CursorWork.task : CursorWork → Option (Nat × Nat)
  | .post backend service => some (backend, service)
  | _ => none

@[simp] theorem schedule_posts_nothing : [CursorWork.schedule].filterMap CursorWork.task = [] := rfl

@[simp] theorem shutdown_posts_nothing : [CursorWork.shutdown].filterMap CursorWork.task = [] := rfl

/-- The task that is being run. -/
def CursorPoint.task : CursorPoint → Option (Nat × Nat)
  | .idle => none
  | .calling call => some (call.backend, call.service)
  | .finishing call _ => some (call.backend, call.service)

namespace CursorSystem

/-- The tasks that are being posted, queued or run. -/
def tasks (system : CursorSystem) : List (Nat × Nat) :=
  system.task.task.toList ++ (system.queue ++
    (system.ui.filterMap CursorWork.task ++ system.platform.filterMap CursorWork.task))

/-- The pending tasks of one service generation. -/
def tasksFor (system : CursorSystem) (service : Nat) : Nat :=
  system.tasks.countP fun task => task.2 = service

/-- A call has changed what is wanted and not yet come to schedule it. -/
def scheduling (system : CursorSystem) : Prop :=
  .schedule ∈ system.ui ∨ .schedule ∈ system.platform

end CursorSystem

/-- The cursor of the last successful call on a backend. -/
def lastSuccess (calls : List (CursorCall × Bool)) (backend : Nat) : Option SystemCursor :=
  ((calls.filter fun answered => answered.1.backend = backend && answered.2).getLast?).map
    fun answered => answered.1.cursor

/-- The last call of all was on this backend, for this revision, and failed. -/
def LastFailed (calls : List (CursorCall × Bool)) (backend revision : Nat) : Prop :=
  ∃ call, calls.getLast? = some (call, false) ∧ call.backend = backend ∧ call.revision = revision

/-- What the cursor fields say about the tasks under way and the calls answered. -/
structure CursorSound (host : HostWindowState) (tasks : List (Nat × Nat)) (scheduling : Prop)
    (point : CursorPoint) (calls : List (CursorCall × Bool)) : Prop where
  single : ∀ service, tasks.countP (·.2 = service) ≤ 1
  future : ∀ task ∈ tasks, task.2 ≤ host.cursorServiceGeneration
  pending : host.running = true → host.cursorSyncPending = true →
    host.cursorPendingService = host.cursorServiceGeneration ∧
      ∃ task ∈ tasks, task.2 = host.cursorServiceGeneration
  free : host.running = true → host.cursorSyncPending = false →
    ∀ task ∈ tasks, task.2 ≠ host.cursorServiceGeneration
  backends : ∀ task ∈ tasks, task.2 = host.cursorServiceGeneration →
    host.cursorBackend = some task.1
  inside : ∀ task, point.task = some task → task ∈ tasks
  /-- A task overtaken by a replacement leaves the new backend to be served. -/
  overtaken : ∀ task, point.task = some task → task.2 ≠ host.cursorServiceGeneration →
    host.running = true → host.cursorBackend.isSome = true →
      host.appliedCursor = none ∧ (host.cursorSyncPending = true ∨ scheduling)
  settled : host.running = true → ∀ backend, host.cursorBackend = some backend →
    host.cursorSyncPending = false → ¬ scheduling →
      host.appliedCursor = some host.desiredCursor ∨
        LastFailed calls backend host.cursorRevision
  shown : host.running = true → ∀ backend cursor, host.cursorBackend = some backend →
    host.appliedCursor = some cursor → (∀ call, point ≠ .finishing call true) →
      lastSuccess calls backend = some cursor
  answered : ∀ call succeeded, point = .finishing call succeeded →
    calls.getLast? = some (call, succeeded)

namespace CursorSound
variable {host : HostWindowState} {tasks others : List (Nat × Nat)} {scheduling : Prop}
  {point : CursorPoint} {calls : List (CursorCall × Bool)} {task : Nat × Nat}

theorem perm (sound : CursorSound host tasks scheduling point calls) (same : tasks.Perm others) :
    CursorSound host others scheduling point calls := by
  have mem : ∀ {task}, task ∈ others ↔ task ∈ tasks := fun {_} => same.mem_iff.symm
  refine { sound with single := ?_, future := ?_, pending := ?_, free := ?_, backends := ?_,
                      inside := ?_ }
  · intro service
    rw [← same.countP_eq]
    exact sound.single service
  · exact fun task member => sound.future task (mem.mp member)
  · intro running pending
    obtain ⟨service, task, member, current⟩ := sound.pending running pending
    exact ⟨service, task, mem.mpr member, current⟩
  · exact fun running free task member => sound.free running free task (mem.mp member)
  · exact fun task member => sound.backends task (mem.mp member)
  · exact fun task inside => mem.mpr (sound.inside task inside)

/-- Nothing is asked of a window that has stopped. -/
theorem stop (sound : CursorSound host tasks scheduling point calls) (other : Prop) :
    CursorSound host.stopLocked tasks other point calls where
  single := sound.single
  future := sound.future
  pending := by simp [stopLocked]
  free := by simp [stopLocked]
  backends := sound.backends
  inside := sound.inside
  overtaken := by simp [stopLocked]
  settled := by simp [stopLocked]
  shown := by simp [stopLocked]
  answered := sound.answered

/-- A task taken off the window that no running window counts on. -/
theorem drop (sound : CursorSound host (task :: tasks) scheduling point calls)
    (unneeded : host.running = true → task.2 ≠ host.cursorServiceGeneration)
    (outside : point = .idle) : CursorSound host tasks scheduling point calls := by
  subst outside
  refine { sound with single := ?_, future := ?_, pending := ?_, free := ?_, backends := ?_,
                      inside := by simp [CursorPoint.task] }
  · intro service
    have single := sound.single service
    rw [List.countP_cons] at single
    omega
  · exact fun other member => sound.future other (List.mem_cons_of_mem _ member)
  · intro running pending
    obtain ⟨service, other, member, current⟩ := sound.pending running pending
    refine ⟨service, other, ?_, current⟩
    obtain rfl | member := List.mem_cons.mp member
    · exact absurd current (unneeded running)
    · exact member
  · exact fun running free other member => sound.free running free other
      (List.mem_cons_of_mem _ member)
  · exact fun other member => sound.backends other (List.mem_cons_of_mem _ member)

/-- `schedule_cursor_sync` up to its post. -/
theorem schedule (sound : CursorSound host tasks True point calls) (other : Prop) :
    CursorSound host.scheduleCursorLocked.2 (host.scheduleCursorLocked.1.toList ++ tasks) other
      point calls := by
  cases backed : host.cursorBackend with
  | none =>
    have nothing : host.scheduleCursorLocked = (none, host) := by
      simp [scheduleCursorLocked, backed]
    rw [nothing]
    exact { sound with
      overtaken := by simp [backed]
      settled := by simp [backed] }
  | some backend =>
    by_cases refused : ¬ host.running ∨ host.cursorSyncPending ∨
        host.appliedCursor = some host.desiredCursor
    · have nothing : host.scheduleCursorLocked = (none, host) := by
        simp only [scheduleCursorLocked, backed, if_pos refused]
      rw [nothing]
      refine { sound with overtaken := ?_, settled := ?_ }
      · intro task inside current running backed
        obtain ⟨unshown, _⟩ := sound.overtaken task inside current running backed
        refine ⟨unshown, .inl ?_⟩
        obtain stopped | pending | shown := refused
        · exact absurd running stopped
        · exact pending
        · simp [unshown] at shown
      · intro running _ _ free _
        obtain stopped | pending | shown := refused
        · exact absurd running stopped
        · cases free.symm.trans pending
        · exact .inl shown
    · have posted : host.scheduleCursorLocked = (some (backend, host.cursorServiceGeneration),
          { host with cursorSyncPending := true
                      cursorPendingService := host.cursorServiceGeneration }) := by
        simp only [scheduleCursorLocked, backed, if_neg refused]
      simp only [not_or, Bool.not_eq_true, Bool.not_eq_false] at refused
      obtain ⟨running, free, _⟩ := refused
      rw [posted]
      have unique := sound.free running free
      constructor
      · intro service
        have single := sound.single service
        rw [Option.toList_some, List.singleton_append, List.countP_cons]
        by_cases current : host.cursorServiceGeneration = service
        · have none : tasks.countP (·.2 = service) = 0 := by
            rw [List.countP_eq_zero]
            intro task member
            simpa [← current] using unique task member
          simp [none, current]
        · simpa [current] using single
      · intro task member
        obtain rfl | member := List.mem_cons.mp member
        · exact le_rfl
        · exact sound.future task member
      · exact fun _ _ => ⟨rfl, _, List.mem_cons_self .., rfl⟩
      · simp
      · intro task member current
        obtain rfl | member := List.mem_cons.mp member
        · exact backed
        · exact sound.backends task member current
      · exact fun task inside => List.mem_cons_of_mem _ (sound.inside task inside)
      · intro task inside current running backed
        exact ⟨(sound.overtaken task inside current running backed).1, .inl rfl⟩
      · simp
      · exact sound.shown
      · exact sound.answered

/-- A new cursor is wanted, and about to be scheduled. -/
theorem desire (sound : CursorSound host tasks scheduling point calls) (cursor : SystemCursor) :
    CursorSound { host with desiredCursor := cursor, cursorRevision := host.cursorRevision + 1 }
      tasks True point calls :=
  { sound with
    overtaken := fun task inside current running backed =>
      ⟨(sound.overtaken task inside current running backed).1, .inr trivial⟩
    settled := by simp }

/-- A new backend has everything before it. -/
theorem replace (sound : CursorSound host tasks scheduling point calls) (backend : Option Nat) :
    CursorSound { host with
      cursorServiceGeneration := host.cursorServiceGeneration + 1
      cursorBackend := backend
      appliedCursor := none
      cursorSyncPending := false
      cursorPendingService := 0 } tasks True point calls where
  single := sound.single
  future task member := (sound.future task member).trans (Nat.le_succ _)
  pending := by simp
  free _ _ task member := (Nat.lt_succ_of_le (sound.future task member)).ne
  backends task member current :=
    absurd current (Nat.lt_succ_of_le (sound.future task member)).ne
  inside := sound.inside
  overtaken _ _ _ _ _ := ⟨rfl, .inr trivial⟩
  settled := by simp
  shown := by simp
  answered := sound.answered

/-- Inside a native call, something is still to come for the current backend. -/
theorem busy (sound : CursorSound host tasks scheduling point calls)
    (inside : point.task = some task) (running : host.running = true)
    (backed : host.cursorBackend.isSome = true) :
    host.cursorSyncPending = true ∨ scheduling := by
  by_cases current : task.2 = host.cursorServiceGeneration
  · cases pending : host.cursorSyncPending with
    | true => exact .inl rfl
    | false => exact absurd current (sound.free running pending task (sound.inside task inside))
  · exact (sound.overtaken task inside current running backed).2

/-- A task enters its native call. -/
theorem enter {cursor : SystemCursor} {revision backend service : Nat}
    (sound : CursorSound host tasks scheduling .idle calls) (member : (backend, service) ∈ tasks)
    (begun : host.beginCursorLocked backend service = some (cursor, revision)) :
    CursorSound host tasks scheduling (.calling ⟨backend, service, cursor, revision⟩) calls := by
  have current : host.cursorServiceGeneration = service := by
    unfold beginCursorLocked at begun
    split at begun
    · cases begun
    · rename_i current
      simpa using (not_or.mp (not_or.mp current).2).2
  refine { sound with inside := ?_, overtaken := ?_, shown := ?_, answered := by simp }
  · intro task inside
    obtain rfl := Option.some.inj inside
    exact member
  · intro task inside stale
    obtain rfl := Option.some.inj inside
    exact absurd current.symm stale
  · exact fun running backend cursor backed shown _ =>
      sound.shown running backend cursor backed shown (by simp)

/-- The native call ends. -/
theorem answer {call : CursorCall} (sound : CursorSound host tasks scheduling (.calling call) calls)
    (succeeded : Bool) :
    CursorSound host tasks scheduling (.finishing call succeeded) (calls ++ [(call, succeeded)]) := by
  refine { sound with settled := ?_, shown := ?_, answered := ?_ }
  · intro running backend backed free unscheduled
    obtain pending | scheduled := sound.busy rfl running (by simp [backed])
    · simp [free] at pending
    · exact absurd scheduled unscheduled
  · intro running backend cursor backed shown failed
    cases succeeded with
    | true => exact absurd rfl (failed call)
    | false =>
      have before := sound.shown running backend cursor backed shown (by simp)
      simpa [lastSuccess] using before
  · intro other outcome same
    cases same
    simp

/-- The point after a task, when what the backend shows is known. -/
theorem leave {call : CursorCall} {succeeded : Bool}
    (sound : CursorSound host tasks scheduling (.finishing call succeeded) calls)
    (shown : host.running = true → ∀ backend cursor, host.cursorBackend = some backend →
      host.appliedCursor = some cursor → lastSuccess calls backend = some cursor) :
    CursorSound host tasks scheduling .idle calls :=
  { sound with
    inside := by simp [CursorPoint.task]
    overtaken := by simp [CursorPoint.task]
    shown := fun running backend cursor backed applied _ =>
      shown running backend cursor backed applied
    answered := by simp }

/-- The last section of a cursor task. -/
theorem finish {call : CursorCall} {succeeded : Bool}
    (sound : CursorSound host ((call.backend, call.service) :: tasks) scheduling
      (.finishing call succeeded) calls) :
    CursorSound (host.finishCursorLocked call.backend call.service call.cursor call.revision
        succeeded).2 tasks
      ((host.finishCursorLocked call.backend call.service call.cursor call.revision
        succeeded).1 = true ∨ scheduling) .idle calls := by
  by_cases outdated : host.cursorBackend ≠ some call.backend ∨
      host.cursorServiceGeneration ≠ call.service ∨ host.cursorPendingService ≠ call.service
  · have nothing : host.finishCursorLocked call.backend call.service call.cursor call.revision
        succeeded = (false, host) := by
      simp only [finishCursorLocked, if_pos outdated]
    have stale : host.running = true → call.service ≠ host.cursorServiceGeneration := by
      intro running current
      have backed := sound.backends _ (List.mem_cons_self ..) current
      have pending : host.cursorSyncPending = true := by
        cases pending : host.cursorSyncPending with
        | true => rfl
        | false => exact absurd current (sound.free running pending _ (List.mem_cons_self ..))
      have service := (sound.pending running pending).1.trans current.symm
      obtain other | other | other := outdated
      · exact other backed
      · exact other current.symm
      · exact other service
    have left := sound.leave fun running backend cursor backed applied => by
      have unshown := (sound.overtaken _ rfl (stale running) running (by simp [backed])).1
      simp [unshown] at applied
    rw [nothing]
    simpa using left.drop stale rfl
  · simp only [not_or, not_not] at outdated
    obtain ⟨backed, current, service⟩ := outdated
    have alone : tasks.countP (·.2 = host.cursorServiceGeneration) = 0 := by
      have single := sound.single host.cursorServiceGeneration
      rw [List.countP_cons_of_pos (by simp [current])] at single
      omega
    have unique : ∀ task ∈ tasks, task.2 ≠ host.cursorServiceGeneration := by
      intro task member
      simpa using (List.countP_eq_zero.mp alone) task member
    have last := sound.answered call succeeded rfl
    have rest : ∀ (applied : Option SystemCursor) (other : Prop),
        (host.running = true → ¬ other → applied = some host.desiredCursor ∨
          LastFailed calls call.backend host.cursorRevision) →
        (∀ cursor, host.running = true → applied = some cursor →
          lastSuccess calls call.backend = some cursor) →
        CursorSound { host with
          cursorSyncPending := false, cursorPendingService := 0, appliedCursor := applied }
          tasks other .idle calls := by
      intro applied other settled shown
      constructor
      · intro service
        have single := sound.single service
        rw [List.countP_cons] at single
        exact (Nat.le_add_right _ _).trans single
      · exact fun task member => sound.future task (List.mem_cons_of_mem _ member)
      · simp
      · exact fun _ _ => unique
      · exact fun task member => sound.backends task (List.mem_cons_of_mem _ member)
      · simp [CursorPoint.task]
      · simp [CursorPoint.task]
      · intro running backend same _ unscheduled
        obtain rfl := Option.some.inj (backed.symm.trans same)
        exact settled running unscheduled
      · intro running backend cursor same applied _
        obtain rfl := Option.some.inj (backed.symm.trans same)
        exact shown cursor running applied
      · simp
    have done : host.finishCursorLocked call.backend call.service call.cursor call.revision
        succeeded = if succeeded then
          (host.running && (host.desiredCursor ≠ call.cursor), { host with
            cursorSyncPending := false, cursorPendingService := 0
            appliedCursor := some call.cursor })
        else (host.running && (host.cursorRevision ≠ call.revision), { host with
            cursorSyncPending := false, cursorPendingService := 0 }) := by
      simp [finishCursorLocked, backed, current, service]
    rw [done]
    cases succeeded with
    | true =>
      refine rest _ _ ?_ ?_
      · intro running unscheduled
        simp only [if_true, running, Bool.true_and, decide_eq_true_eq, not_or, not_not,
          ne_eq] at unscheduled
        exact .inl (congrArg some unscheduled.1.symm)
      · rintro cursor _ ⟨⟩
        obtain ⟨before, rfl⟩ := List.getLast?_eq_some_iff.mp last
        simp [lastSuccess]
    | false =>
      refine rest host.appliedCursor _ ?_ ?_
      · intro running unscheduled
        simp only [Bool.false_eq_true, if_false, running, Bool.true_and, decide_eq_true_eq,
          not_or, not_not, ne_eq] at unscheduled
        exact .inr ⟨call, last, rfl, unscheduled.1.symm⟩
      · intro cursor running applied
        exact sound.shown running _ cursor backed applied (by simp)

end CursorSound

namespace CursorSystem
variable {system next : CursorSystem}

def Sound (system : CursorSystem) : Prop :=
  CursorSound system.host system.tasks system.scheduling system.task system.calls

/-- One piece of work on either thread: `others` are the tasks elsewhere and
`elsewhere` says that the other thread, or the rest of this one, is scheduling. -/
theorem run_work {work : CursorWork} {others : List (Nat × Nat)} {elsewhere : Prop}
    (sound : CursorSound system.host (work.task.toList ++ (system.queue ++ others))
      (work = .schedule ∨ elsewhere) system.task system.calls) :
    CursorSound (system.runWork work).1.host
      ((system.runWork work).2.filterMap CursorWork.task ++
        ((system.runWork work).1.queue ++ others))
      (.schedule ∈ (system.runWork work).2 ∨ elsewhere) system.task system.calls ∧
    (system.runWork work).1.task = system.task ∧ (system.runWork work).1.calls = system.calls ∧
    (system.runWork work).1.ui = system.ui ∧ (system.runWork work).1.platform = system.platform := by
  cases work with
  | schedule =>
    simp only [CursorWork.task, Option.toList_none, List.nil_append, true_or] at sound
    simp only [runWork]
    split
    · rename_i host nothing
      have scheduled := sound.schedule elsewhere
      rw [nothing] at scheduled
      simpa using scheduled
    · rename_i backend service host posted
      have scheduled := sound.schedule elsewhere
      rw [posted] at scheduled
      simpa [CursorWork.task] using scheduled
  | post backend service =>
    refine ⟨?_, rfl, rfl, rfl, rfl⟩
    simp only [reduceCtorEq, false_or] at sound
    have moved : ((backend, service) :: (system.queue ++ others)).Perm
        (system.queue ++ [(backend, service)] ++ others) := by
      rw [List.append_assoc]
      exact List.perm_middle.symm
    simpa [runWork] using sound.perm moved
  | shutdown =>
    simp only [CursorWork.task, Option.toList_none, List.nil_append, reduceCtorEq,
      false_or] at sound
    simp only [runWork, shutdown]
    split
    · simpa using sound.stop elsewhere
    · simpa using sound

private theorem tasks_cons (work : CursorWork) (rest : List CursorWork) :
    (work :: rest).filterMap CursorWork.task =
      work.task.toList ++ rest.filterMap CursorWork.task := by
  cases posted : work.task <;> simp [posted]

theorem Sound.continue_ui {work : CursorWork} {rest : List CursorWork} (sound : system.Sound)
    (left : system.ui = work :: rest) :
    Sound { (system.runWork work).1 with ui := (system.runWork work).2 ++ rest } := by
  have opened : CursorSound system.host (work.task.toList ++ (system.queue ++
      (system.task.task.toList ++ (rest.filterMap CursorWork.task ++
        system.platform.filterMap CursorWork.task))))
      (work = .schedule ∨ .schedule ∈ rest ∨ .schedule ∈ system.platform) system.task
      system.calls := by
    have sound : CursorSound system.host system.tasks system.scheduling system.task
      system.calls := sound
    rw [tasks, scheduling, left, tasks_cons, List.mem_cons, or_assoc, eq_comm] at sound
    refine sound.perm (List.perm_iff_count.mpr fun task => ?_)
    simp only [List.count_append]
    omega
  obtain ⟨ran, task, calls, _, platform⟩ := run_work opened
  have closed : ((system.runWork work).2.filterMap CursorWork.task ++
      ((system.runWork work).1.queue ++ (system.task.task.toList ++
        (rest.filterMap CursorWork.task ++ system.platform.filterMap CursorWork.task)))).Perm
      (tasks { (system.runWork work).1 with ui := (system.runWork work).2 ++ rest }) := by
    refine List.perm_iff_count.mpr fun other => ?_
    simp only [tasks, task, platform, List.filterMap_append, List.count_append]
    omega
  have same : (.schedule ∈ (system.runWork work).2 ∨ .schedule ∈ rest ∨
      .schedule ∈ system.platform) =
      scheduling { (system.runWork work).1 with ui := (system.runWork work).2 ++ rest } := by
    simp [scheduling, platform, or_assoc]
  have ran := ran.perm closed
  rw [same, ← task, ← calls] at ran
  exact ran

theorem Sound.continue_platform {work : CursorWork} {rest : List CursorWork}
    (sound : system.Sound) (left : system.platform = work :: rest) :
    Sound { (system.runWork work).1 with platform := (system.runWork work).2 ++ rest } := by
  have opened : CursorSound system.host (work.task.toList ++ (system.queue ++
      (system.task.task.toList ++ (system.ui.filterMap CursorWork.task ++
        rest.filterMap CursorWork.task))))
      (work = .schedule ∨ .schedule ∈ system.ui ∨ .schedule ∈ rest) system.task
      system.calls := by
    have sound : CursorSound system.host system.tasks system.scheduling system.task
      system.calls := sound
    rw [tasks, scheduling, left, tasks_cons, List.mem_cons, or_left_comm, eq_comm] at sound
    refine sound.perm (List.perm_iff_count.mpr fun task => ?_)
    simp only [List.count_append]
    omega
  obtain ⟨ran, task, calls, ui, _⟩ := run_work opened
  have closed : ((system.runWork work).2.filterMap CursorWork.task ++
      ((system.runWork work).1.queue ++ (system.task.task.toList ++
        (system.ui.filterMap CursorWork.task ++ rest.filterMap CursorWork.task)))).Perm
      (tasks { (system.runWork work).1 with platform := (system.runWork work).2 ++ rest }) := by
    refine List.perm_iff_count.mpr fun other => ?_
    simp only [tasks, task, ui, List.filterMap_append, List.count_append]
    omega
  have same : (.schedule ∈ (system.runWork work).2 ∨ .schedule ∈ system.ui ∨
      .schedule ∈ rest) =
      scheduling { (system.runWork work).1 with platform := (system.runWork work).2 ++ rest } := by
    simp [scheduling, ui, or_left_comm]
  have ran := ran.perm closed
  rw [same, ← task, ← calls] at ran
  exact ran

theorem Sound.set_cursor (sound : system.Sound) (free : system.ui = []) (cursor : SystemCursor) :
    (system.setCursor cursor).Sound := by
  unfold setCursor setCursorLocked
  split
  case h_1 => exact sound
  case h_2 =>
    simpa [Sound, tasks, scheduling, free, CursorWork.task] using sound
  case h_3 host desired =>
    split at desired
    · simp at desired
    split at desired
    · simp at desired
    · simp only [Prod.mk.injEq, true_and] at desired
      subst desired
      have wanted := CursorSound.desire sound cursor
      simpa [Sound, tasks, scheduling, free, CursorWork.task] using wanted

theorem Sound.set_cursor_backend (sound : system.Sound) (free : system.platform = [])
    (backend : Option Nat) : (system.setCursorBackend backend).Sound := by
  unfold setCursorBackend setCursorBackendLocked
  split
  case h_1 => exact sound
  case h_2 =>
    simpa [Sound, tasks, scheduling, free, CursorWork.task] using sound
  case h_3 host replaced =>
    split at replaced
    · simp at replaced
    split at replaced
    · simp at replaced
    · simp only [Prod.mk.injEq] at replaced
      obtain ⟨_, rfl⟩ := replaced
      have replaced := CursorSound.replace sound backend
      simpa [Sound, tasks, scheduling, free, CursorWork.task] using replaced

theorem Sound.run_task {backend service : Nat} {queue : List (Nat × Nat)} (sound : system.Sound)
    (queued : system.queue = (backend, service) :: queue) (idle : system.task = .idle) :
    (CursorSystem.runTask { system with queue } backend service).Sound := by
  have opened : CursorSound system.host ((backend, service) :: (queue ++
      (system.ui.filterMap CursorWork.task ++ system.platform.filterMap CursorWork.task)))
      system.scheduling .idle system.calls := by
    simpa [Sound, tasks, queued, idle, CursorPoint.task] using sound
  unfold runTask
  split
  case h_1 refused =>
    have unneeded : system.host.running = true →
        service ≠ system.host.cursorServiceGeneration := by
      intro running current
      have backed := opened.backends _ (List.mem_cons_self ..) current
      simp [beginCursorLocked, running, backed, current] at refused
    have dropped := opened.drop unneeded rfl
    simpa [Sound, tasks, scheduling, idle, CursorPoint.task] using dropped
  case h_2 cursor revision begun =>
    have begun := opened.enter (List.mem_cons_self ..) begun
    simpa [Sound, tasks, scheduling, CursorPoint.task] using begun

theorem Sound.finish_task {call : CursorCall} {succeeded : Bool} (sound : system.Sound)
    (finishing : system.task = .finishing call succeeded) (free : system.platform = []) :
    (system.finishTask call succeeded).Sound := by
  have opened : CursorSound system.host ((call.backend, call.service) :: (system.queue ++
      system.ui.filterMap CursorWork.task)) (.schedule ∈ system.ui) (.finishing call succeeded)
      system.calls := by
    simpa [Sound, tasks, scheduling, free, finishing, CursorPoint.task] using sound
  have finished := opened.finish
  unfold finishTask
  revert finished
  generalize system.host.finishCursorLocked call.backend call.service call.cursor call.revision
    succeeded = outcome
  obtain ⟨newer, host⟩ := outcome
  intro finished
  cases newer <;>
    simpa [Sound, tasks, scheduling, CursorPoint.task, CursorWork.task] using finished

theorem Sound.step {action : Action} (sound : system.Sound)
    (stepped : system.step action = some next) : next.Sound := by
  cases action with
  | setCursor cursor =>
    simp only [CursorSystem.step] at stepped
    split at stepped
    case isTrue free =>
      cases stepped
      exact sound.set_cursor (List.isEmpty_iff.mp free) cursor
    case isFalse => cases stepped
  | continueUi =>
    simp only [CursorSystem.step] at stepped
    split at stepped
    · cases stepped
    · rename_i work rest left
      cases stepped
      exact sound.continue_ui left
  | setCursorBackend backend =>
    simp only [CursorSystem.step] at stepped
    split at stepped
    · rename_i free _
      cases stepped
      exact sound.set_cursor_backend free backend
    · rename_i free _
      cases stepped
      exact sound.set_cursor_backend free backend
    · cases stepped
  | runTask =>
    simp only [CursorSystem.step] at stepped
    split at stepped
    · rename_i backend service queue queued free idle
      cases stepped
      exact sound.run_task queued idle
    · cases stepped
  | nativeReturns succeeded =>
    simp only [CursorSystem.step] at stepped
    split at stepped
    · rename_i call free calling
      cases stepped
      have opened : CursorSound system.host system.tasks system.scheduling (.calling call)
          system.calls := calling ▸ sound
      have answered := opened.answer succeeded
      simpa [Sound, tasks, calling, CursorPoint.task, scheduling] using answered
    · cases stepped
  | continuePlatform =>
    simp only [CursorSystem.step] at stepped
    split at stepped
    · rename_i work rest _ left
      cases stepped
      exact sound.continue_platform left
    · rename_i call succeeded free finishing
      cases stepped
      exact sound.finish_task finishing free
    · cases stepped
  | shutdown =>
    cases stepped
    unfold shutdown
    split
    · exact CursorSound.stop sound system.scheduling
    · exact sound

theorem Sound.start (initial : cursorMachine.init system) : system.Sound := by
  obtain ⟨id, logicalSize, physicalWidth, physicalHeight, devicePixelRatio, visible, host,
    created, rfl⟩ := initial
  have fresh : host.cursorBackend = none ∧ host.cursorSyncPending = false ∧
      host.appliedCursor = none := by
    unfold createHostWindow at created
    split at created
    · cases created
    dsimp only at created
    split at created
    · cases created
    · cases created
      exact ⟨rfl, rfl, rfl⟩
  obtain ⟨unbacked, free, unshown⟩ := fresh
  exact ⟨by simp [tasks, CursorPoint.task], by simp [tasks, CursorPoint.task], by simp [free],
    by simp [tasks, CursorPoint.task], by simp [tasks, CursorPoint.task],
    by simp [CursorPoint.task], by simp [CursorPoint.task], by simp [unbacked],
    by simp [unbacked], by simp⟩

end CursorSystem

/-- The cursor over every interleaving: no service generation ever has two tasks
pending, and when the current one has none, while no call is about to schedule one,
the backend of a running window was last set to the desired cursor, or its last
call failed and nothing was desired since. -/
theorem cursor_converges {system : CursorSystem} (reached : Reachable cursorMachine system) :
    (∀ service, system.tasksFor service ≤ 1) ∧
    (∀ backend, system.tasksFor system.host.cursorServiceGeneration = 0 → ¬ system.scheduling →
      system.host.running = true → system.host.cursorBackend = some backend →
      lastSuccess system.calls backend = some system.host.desiredCursor ∨
        LastFailed system.calls backend system.host.cursorRevision) := by
  have sound : system.Sound := by
    apply Reaches.invariant CursorSystem.Sound _ _ reached
    · exact fun _ initial => CursorSystem.Sound.start initial
    · exact fun _ _ _ sound _ stepped => sound.step stepped
  refine ⟨sound.single, ?_⟩
  intro backend none unscheduled running backed
  have unique : ∀ task ∈ system.tasks, task.2 ≠ system.host.cursorServiceGeneration := by
    intro task member
    simpa using List.countP_eq_zero.mp none task member
  have free : system.host.cursorSyncPending = false := by
    cases pending : system.host.cursorSyncPending with
    | false => rfl
    | true =>
      obtain ⟨_, task, member, current⟩ := sound.pending running pending
      exact absurd current (unique task member)
  have outside : ∀ call, system.task ≠ .finishing call true := by
    intro call finishing
    have inside : system.task.task = some (call.backend, call.service) := by
      rw [finishing]
      rfl
    obtain pending | scheduled := sound.busy inside running (by simp [backed])
    · simp [free] at pending
    · exact unscheduled scheduled
  obtain applied | failed := sound.settled running backend backed free unscheduled
  · exact .inl (sound.shown running backend _ backed applied outside)
  · exact .inr failed

/-- A window just created. -/
def plainWindow : CursorSystem := { host := { id := 1, metrics := ⟨⟨10, 20⟩, 10, 20, 1, 1⟩ } }

theorem plain_window_initial : cursorMachine.init plainWindow := by
  refine ⟨1, ⟨10, 20⟩, 10, 20, 1, false, plainWindow.host, ?_, rfl⟩
  have valid : WindowMetrics.valid ⟨⟨10, 20⟩, 10, 20, 1, 1⟩ = true := by decide +kernel
  simp [createHostWindow, valid, plainWindow]

/-- The backend is replaced inside a native call, and the cursor changes inside the
first call of the new one, which fails. -/
def overtakenCursor : List CursorSystem.Action :=
  [.setCursorBackend (some 3), .continuePlatform, .continuePlatform, .runTask,
    .setCursorBackend (some 4), .continuePlatform, .continuePlatform, .nativeReturns true,
    .continuePlatform, .runTask, .setCursor .hand, .continueUi, .nativeReturns false,
    .continuePlatform, .continuePlatform, .continuePlatform, .runTask, .nativeReturns true,
    .continuePlatform]

/-- The new backend ends up with the new cursor. -/
theorem overtaken_cursor_converges :
    ∃ system, cursorMachine.run plainWindow overtakenCursor = some system ∧
      system.host.cursorBackend = some 4 ∧ lastSuccess system.calls 4 = some .hand := by
  have observed : (cursorMachine.run plainWindow overtakenCursor).map (fun system =>
      (system.host.cursorBackend, system.host.desiredCursor, system.host.running,
        system.tasksFor system.host.cursorServiceGeneration, system.ui, system.platform,
        system.calls.getLast?.map Prod.snd)) =
      some (some 4, .hand, true, 0, [], [], some true) := by rfl
  obtain ⟨system, ran, seen⟩ := Option.map_eq_some_iff.mp observed
  simp only [Prod.mk.injEq] at seen
  obtain ⟨backed, desired, running, none, ui, platform, last⟩ := seen
  refine ⟨system, ran, backed, ?_⟩
  obtain shown | ⟨call, failed, _⟩ := (cursor_converges
    (Reachable.run (.start plain_window_initial) ran)).2 4 none
      (by simp [CursorSystem.scheduling, ui, platform]) running backed
  · rw [shown, desired]
  · simp [failed] at last

end Dui
