import Dui.Timeline

/-! Incremental reads of the timeline lose nothing silently: the ring holds exactly the
positions from the retention floor on, and a read hands out a contiguous piece of the
completed events, counting what it skips. -/
namespace Dui
open Transition

namespace TimelineRecorder

/-- The recorder holds the completed events from the retention floor on. -/
structure Holds (recorder : TimelineRecorder) (completed : List TimelineEvent) : Prop where
  formed : recorder.ring.WellFormed
  next : recorder.nextCompletionPosition = completed.length + 1
  floor : 1 ≤ recorder.retentionFloor
  bounded : recorder.retentionFloor ≤ recorder.nextCompletionPosition
  contents : recorder.ring.contents = (completed.zipIdx 1).drop (recorder.retentionFloor - 1)

variable {recorder : TimelineRecorder} {completed : List TimelineEvent}

theorem Holds.count (holds : recorder.Holds completed) :
    recorder.ring.count + recorder.retentionFloor = recorder.nextCompletionPosition := by
  have lengths := congrArg List.length holds.contents
  have floor := holds.floor
  have next := holds.next
  have bounded := holds.bounded
  simp only [RingBuffer.length_contents, List.length_drop, List.length_zipIdx] at lengths
  omega

theorem create_holds {capacity flowToken : Nat} {hasClock : Bool}
    (created : create capacity hasClock flowToken = .ok recorder) : recorder.Holds [] := by
  unfold create at created
  split at created
  · cases created
  · rename_i positive
    split at created
    · cases created
    · cases created
      exact ⟨⟨Nat.zero_le _, Nat.pos_of_ne_zero positive⟩, rfl, le_rfl, le_rfl, rfl⟩

theorem Holds.begin_holds (holds : recorder.Holds completed) (lane : TimelineLane)
    (phase : TimelinePhase) (parentSpanId frameId flowId pass workCount : Nat) (start : Int) :
    (recorder.beginEvent lane phase parentSpanId frameId flowId pass workCount start).2.Holds
      completed :=
  ⟨holds.formed, holds.next, holds.floor, holds.bounded, holds.contents⟩

theorem Holds.clear_holds (holds : recorder.Holds completed) : recorder.clear.Holds completed := by
  have next := holds.next
  refine ⟨holds.formed.clear, next, ?_, le_rfl, ?_⟩
  · show 1 ≤ recorder.nextCompletionPosition
    omega
  · show [] = (completed.zipIdx 1).drop (recorder.nextCompletionPosition - 1)
    rw [next, Nat.add_sub_cancel, List.drop_eq_nil_of_le (by rw [List.length_zipIdx])]

/-- Finishing an event adds it at the end, and lets the oldest go when the ring is full. -/
theorem Holds.finish_holds (holds : recorder.Holds completed) (event : TimelineEvent)
    (left : recorder.nextCompletionPosition ≠ maxGeneration) :
    (recorder.finish event).Holds (completed ++ [event]) := by
  have count := holds.count
  have floor := holds.floor
  have next := holds.next
  have bounded := holds.bounded
  have extended : ((completed ++ [event]).zipIdx 1) =
      completed.zipIdx 1 ++ [(event, recorder.nextCompletionPosition)] := by
    rw [List.zipIdx_append, next, Nat.add_comm]
    rfl
  have numbered : (recorder.finish event).nextCompletionPosition =
      (completed ++ [event]).length + 1 := by
    simp only [finish, if_neg left, List.length_append, List.length_singleton]
    split
    · exact congrArg (· + 1) next
    · exact congrArg (· + 1) next
  have kept := holds.contents
  by_cases room : recorder.ring.count < recorder.ring.capacity
  · have recorded : recorder.finish event =
        { recorder with
          nextCompletionPosition := recorder.nextCompletionPosition + 1
          ring := recorder.ring.push (event, recorder.nextCompletionPosition) } := by
      simp only [finish, if_neg left, if_pos room]
    rw [recorded] at numbered ⊢
    refine ⟨holds.formed.push _, numbered, floor, Nat.le_succ_of_le bounded, ?_⟩
    show (recorder.ring.push _).contents = List.drop (recorder.retentionFloor - 1) _
    rw [RingBuffer.contents_push_room room, kept, extended,
      List.drop_append_of_le_length (by rw [List.length_zipIdx]; omega)]
  · have recorded : recorder.finish event =
        { recorder with
          nextCompletionPosition := recorder.nextCompletionPosition + 1
          ring := recorder.ring.push (event, recorder.nextCompletionPosition)
          retentionFloor := recorder.nextCompletionPosition - recorder.ring.count + 1
          droppedEventCount := recorder.droppedEventCount + 1 } := by
      simp only [finish, if_neg left, if_neg room]
    rw [recorded] at numbered ⊢
    have moved : recorder.nextCompletionPosition - recorder.ring.count + 1 =
        recorder.retentionFloor + 1 := by omega
    have used := holds.formed.first
    refine ⟨holds.formed.push _, numbered, ?_, ?_, ?_⟩
    · show 1 ≤ recorder.nextCompletionPosition - recorder.ring.count + 1
      omega
    · show recorder.nextCompletionPosition - recorder.ring.count + 1 ≤
        recorder.nextCompletionPosition + 1
      omega
    · show (recorder.ring.push _).contents = List.drop
        (recorder.nextCompletionPosition - recorder.ring.count + 1 - 1) _
      rw [RingBuffer.contents_push_full holds.formed room, kept, extended, moved,
        List.drop_append_of_le_length (by rw [List.length_zipIdx]; omega), List.tail_drop]
      congr 3
      omega

/-! Reading. -/

theorem drop_zipIdx (events : List TimelineEvent) : ∀ start count,
    (events.zipIdx start).drop count = (events.drop count).zipIdx (start + count) := by
  induction events with
  | nil =>
    intro start count
    rw [List.drop_nil, List.zipIdx_nil, List.zipIdx_nil, List.drop_nil]
  | cons event rest ih =>
    intro start count
    cases count with
    | zero => rfl
    | succ count =>
      rw [List.zipIdx_cons, List.drop_succ_cons, List.drop_succ_cons, ih, Nat.add_assoc,
        Nat.add_comm 1]

/-- The loop skips what comes before the available position. -/
theorem read_skips {maxEvents available : Nat} (wanted : 0 < maxEvents)
    (events : List TimelineEvent) : ∀ start next, start ≤ available →
    readLoop maxEvents available (events.zipIdx start) ([], next) =
      readLoop maxEvents available ((events.drop (available - start)).zipIdx available)
        ([], next) := by
  induction events with
  | nil =>
    intro start next _
    rw [List.drop_nil]
    rfl
  | cons event rest ih =>
    intro start next below
    by_cases here : start = available
    · rw [here, Nat.sub_self]
      rfl
    · have earlier : start < available := by omega
      have later : available - start = (available - (start + 1)) + 1 := by omega
      rw [List.zipIdx_cons, readLoop, List.length_nil, if_pos wanted, if_pos earlier,
        ih _ _ earlier, later, List.drop_succ_cons]

/-- From the available position on, the loop takes events until it has enough. -/
theorem read_takes {maxEvents available : Nat} (events : List TimelineEvent) :
    ∀ position taken, available ≤ position → taken.length ≤ maxEvents →
    readLoop maxEvents available (events.zipIdx position) (taken, position) =
      (taken ++ events.take (maxEvents - taken.length),
        position + (events.take (maxEvents - taken.length)).length) := by
  induction events with
  | nil =>
    intro position taken _ _
    rw [List.take_nil, List.append_nil]
    rfl
  | cons event rest ih =>
    intro position taken reached fits
    rw [List.zipIdx_cons, readLoop]
    by_cases more : taken.length < maxEvents
    · obtain ⟨others, counted⟩ : ∃ others, maxEvents - taken.length = others + 1 :=
        ⟨maxEvents - taken.length - 1, by omega⟩
      have longer : (taken ++ [event]).length = taken.length + 1 := by
        rw [List.length_append, List.length_singleton]
      rw [if_pos more, if_neg (Nat.not_lt.mpr reached), ih _ _ (by omega) (by omega), longer,
        counted, List.take_succ_cons, show maxEvents - (taken.length + 1) = others by omega]
      rw [List.append_assoc, List.singleton_append, List.length_cons]
      congr 1
      omega
    · have none_left : maxEvents - taken.length = 0 := by omega
      rw [if_neg more, none_left, List.take_zero, List.append_nil]
      rfl

/-- What a read hands out: the completed events behind those it reports as missed. -/
structure Handed (completed : List TimelineEvent) (cursor : TimelineCursor)
    (batch : TimelineBatch) : Prop where
  distance : batch.events.length + batch.missedEventCount + cursor.position =
    batch.nextCursor.position
  events : batch.events = (completed.take (batch.nextCursor.position - 1)).drop
    (cursor.position - 1 + batch.missedEventCount)
  bounded : batch.nextCursor.position ≤ completed.length + 1

theorem Holds.read_handed (holds : recorder.Holds completed) {maxEvents : Nat}
    {cursor : TimelineCursor} {batch : TimelineBatch}
    (read : recorder.readCompleted maxEvents cursor = .ok batch) :
    Handed completed cursor batch := by
  have floor := holds.floor
  have next := holds.next
  have bounded := holds.bounded
  unfold readCompleted at read
  split at read
  · cases read
  split at read
  · cases read
  rename_i wanted
  split at read
  · cases read
  split at read
  · cases read
  rename_i behind
  have start : 1 ≤ cursor.position := by
    unfold TimelineCursor.position
    split <;> omega
  have available : max cursor.position recorder.retentionFloor ≤ completed.length + 1 := by omega
  generalize placed : max cursor.position recorder.retentionFloor = position at read available
  have above : recorder.retentionFloor ≤ position := by omega
  -- the retained events from the available position on are the completed ones
  have shown : readLoop maxEvents position recorder.retained ([], position) =
      ((completed.drop (position - 1)).take maxEvents,
        position + ((completed.drop (position - 1)).take maxEvents).length) := by
    rw [TimelineRecorder.retained, holds.contents, drop_zipIdx, show 1 + (recorder.retentionFloor - 1) =
      recorder.retentionFloor by omega, read_skips (by omega) _ _ _ above, List.drop_drop,
      show recorder.retentionFloor - 1 + (position - recorder.retentionFloor) = position - 1 by
        omega, read_takes _ _ [] le_rfl (Nat.zero_le _)]
    rfl
  simp only [shown] at read
  cases read
  have moved : (TimelineCursor.mk (some recorder.flowToken)
      (position + ((completed.drop (position - 1)).take maxEvents).length)).position =
      position + ((completed.drop (position - 1)).take maxEvents).length := by
    rw [TimelineCursor.position, if_neg]
    show position + _ ≠ 0
    omega
  generalize counted : ((completed.drop (position - 1)).take maxEvents).length = count at moved
  refine ⟨?_, ?_, ?_⟩
  · simp only [counted, moved]
    omega
  · simp only [moved]
    rw [show cursor.position - 1 + (position - cursor.position) = position - 1 by omega,
      show position + count - 1 = position - 1 + count by omega, List.drop_take,
      Nat.add_sub_cancel_left, ← counted, List.length_take, ← List.take_take, List.take_length]
  · simp only [moved]
    rw [List.length_take, List.length_drop] at counted
    omega

end TimelineRecorder

/-- What a reader has received comes in the order of completion, and together with what
was reported as missed it is everything before its cursor. -/
structure TimelineReader.Caught (reader : TimelineReader) (completed : List TimelineEvent) :
    Prop where
  received : reader.received.Sublist (completed.take (reader.cursor.position - 1))
  counted : reader.received.length + reader.missed = reader.cursor.position - 1
  bounded : reader.cursor.position ≤ completed.length + 1

theorem cursor_positive (cursor : TimelineCursor) : 1 ≤ cursor.position := by
  unfold TimelineCursor.position
  split
  · exact le_rfl
  · omega

/-- More completed events change nothing for a reader. -/
theorem TimelineReader.Caught.append {reader : TimelineReader} {completed : List TimelineEvent}
    (caught : reader.Caught completed) (event : TimelineEvent) :
    reader.Caught (completed ++ [event]) := by
  have bounded := caught.bounded
  refine ⟨?_, caught.counted, ?_⟩
  · rw [List.take_append_of_le_length (by omega)]
    exact caught.received
  · rw [List.length_append, List.length_singleton]
    omega

/-- A read goes on where the reader was. -/
theorem TimelineReader.Caught.read {reader : TimelineReader} {completed : List TimelineEvent}
    {batch : TimelineBatch} (caught : reader.Caught completed)
    (handed : TimelineRecorder.Handed completed reader.cursor batch) :
    TimelineReader.Caught ⟨batch.nextCursor, reader.received ++ batch.events,
      reader.missed + batch.missedEventCount⟩ completed := by
  have before := cursor_positive reader.cursor
  have distance := handed.distance
  have counted := caught.counted
  refine ⟨?_, ?_, handed.bounded⟩
  · -- what was received lies before the cursor, and the batch behind it
    have split := List.take_append_drop (reader.cursor.position - 1)
      (completed.take (batch.nextCursor.position - 1))
    rw [List.take_take, min_eq_left (by omega)] at split
    rw [← split]
    refine caught.received.append ?_
    rw [handed.events, ← List.drop_drop]
    exact List.drop_sublist _ _
  · show (reader.received ++ batch.events).length + (reader.missed + batch.missedEventCount) =
      batch.nextCursor.position - 1
    rw [List.length_append]
    omega

/-- As long as positions are left, the recorder holds what it should and every reader has
caught up to its cursor. -/
structure TimelineSystem.Sound (system : TimelineSystem) : Prop where
  holds : system.recorder.Holds system.completed
  readers : ∀ reader, (system.readers reader).Caught system.completed

/-- Exhaustion is for good. -/
theorem exhausted_stays {system : TimelineSystem} (action : TimelineSystem.Action)
    (left : (system.step action).recorder.completionPositionsExhausted = false) :
    system.recorder.completionPositionsExhausted = false := by
  cases action with
  | begin => exact left
  | clear => exact left
  | finish event outcome now =>
    simp only [TimelineSystem.step, TimelineRecorder.finish] at left
    by_cases last : system.recorder.nextCompletionPosition = maxGeneration
    · simp only [last, if_true] at left
      split at left <;> cases left
    · simp only [last, if_false] at left
      split at left <;> exact left
  | read reader maxEvents =>
    simp only [TimelineSystem.step] at left
    split at left <;> exact left

theorem TimelineSystem.Sound.step {system : TimelineSystem} (sound : system.Sound)
    (action : TimelineSystem.Action)
    (left : (system.step action).recorder.completionPositionsExhausted = false) :
    (system.step action).Sound := by
  cases action with
  | begin lane phase parentSpanId frameId flowId pass workCount start =>
    exact ⟨sound.holds.begin_holds lane phase parentSpanId frameId flowId pass workCount start,
      sound.readers⟩
  | clear => exact ⟨sound.holds.clear_holds, sound.readers⟩
  | finish event outcome now =>
    refine ⟨sound.holds.finish_holds _ fun last => ?_, fun reader => (sound.readers reader).append _⟩
    simp only [TimelineSystem.step, TimelineRecorder.finish, last, if_true] at left
    split at left <;> cases left
  | read reader maxEvents =>
    simp only [TimelineSystem.step]
    cases read : system.recorder.readCompleted maxEvents (system.readers reader).cursor with
    | error failure => exact sound
    | ok batch =>
      refine ⟨sound.holds, fun other => ?_⟩
      show TimelineReader.Caught (if other = reader then _ else _) _
      split
      · exact (sound.readers reader).read (sound.holds.read_handed read)
      · exact sound.readers other

/-- In every run, while completion positions are left: the retained events are those from
the retention floor on; every reader has received completed events in their order, each at
most once, and with those counted as missed they are all before its cursor; and a read hands
out a contiguous piece and counts what it skips. -/
theorem timeline_reads_exact {system : TimelineSystem} (reached : Reachable timelineMachine system)
    (left : system.recorder.completionPositionsExhausted = false) :
    system.recorder.nextCompletionPosition = system.completed.length + 1 ∧
    system.recorder.retained =
      (system.completed.zipIdx 1).drop (system.recorder.retentionFloor - 1) ∧
    (∀ reader, (system.readers reader).Caught system.completed) ∧
    ∀ reader maxEvents batch,
      system.recorder.readCompleted maxEvents (system.readers reader).cursor = .ok batch →
      TimelineRecorder.Handed system.completed (system.readers reader).cursor batch := by
  have sound : system.Sound := by
    refine reached.invariant (fun system =>
      system.recorder.completionPositionsExhausted = false → system.Sound) ?_ ?_ left
    · rintro state ⟨capacity, hasClock, flowToken, recorder, created, rfl⟩ _
      exact ⟨TimelineRecorder.create_holds created, fun reader => ⟨List.nil_sublist _, rfl, le_rfl⟩⟩
    · rintro state action next good _ stepped remaining
      cases stepped
      exact (good (exhausted_stays action remaining)).step action remaining
  exact ⟨sound.holds.next, sound.holds.contents, sound.readers,
    fun reader maxEvents batch read => sound.holds.read_handed read⟩

/-- Two events are retained, and a reader comes after the third. -/
def lateReads : List TimelineSystem.Action :=
  [.finish { sequence := 1 } .completed 4, .finish { sequence := 2 } .completed 5,
    .finish { sequence := 3 } .failed 6, .read 0 1, .clear, .finish { sequence := 4 } .completed 7,
    .read 0 8]

def lateSystem : TimelineSystem :=
  { recorder := { ring := { slots := fun _ => default, capacity := 2 }, flowToken := 7 } }

theorem timeline_reads_exact_late : ∃ system, timelineMachine.run lateSystem lateReads = some system ∧
    (system.readers 0).received.map (·.sequence) = [2, 4] ∧ (system.readers 0).missed = 2 ∧
    (system.readers 0).Caught system.completed := by
  have ran : (timelineMachine.run lateSystem lateReads).map (fun system =>
      ((system.readers 0).received.map (·.sequence), (system.readers 0).missed,
        system.recorder.completionPositionsExhausted)) = some ([2, 4], 2, false) := by
    decide +kernel
  obtain ⟨system, ran, shown⟩ := Option.map_eq_some_iff.mp ran
  have initial : timelineMachine.init lateSystem := ⟨2, true, 7, _, rfl, rfl⟩
  have exact := timeline_reads_exact (Reachable.run (.start initial) ran)
    (congrArg (·.2.2) shown)
  exact ⟨system, ran, congrArg Prod.fst shown, congrArg (·.2.1) shown, exact.2.2.1 0⟩

end Dui
