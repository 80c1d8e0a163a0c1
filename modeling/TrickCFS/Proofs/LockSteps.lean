import TrickCFS.Proofs.HostSteps

/-! The hand-off of a frame between the main thread and the scheduler. Each call
of `updateCFS` posts one trigger, which starts one pass over the schedule table,
and the read that ends the call returns after that pass has finished. -/

namespace TrickCFS

/-- The frames of a run. -/
structure Frames where
  /-- Calls of `updateCFS`. -/
  updates : Nat := 0
  /-- Passes of `processScheduleTable` that have started. -/
  started : Nat := 0
  /-- Passes of `processScheduleTable` that have finished. -/
  finished : Nat := 0

def Frames.record (frames : Frames) (state : Threads) : ThreadEvent → Frames
  | .main =>
    match state.main with
    | .returned => { frames with updates := frames.updates + 1 }
    | _ => frames
  | .scheduler =>
    match state.scheduler with
    | .waiting => { frames with started := frames.started + 1 }
    | .processing => { frames with finished := frames.finished + 1 }
    | _ => frames
  | _ => frames

def hostFrames : Machine.Monitor Host HostEvent Frames where
  start := {}
  record := fun frames state event =>
    match event with
    | .thread event => frames.record state.threads event
    | _ => frames

namespace Proofs.LockSteps
open Threads

variable {config : Config} {state next : Threads} {frames : Frames}

/-- The call of `updateCFS` whose trigger the scheduler has not read yet. -/
def owed (state : Threads) : Nat :=
  match state.main with
  | .updating _ => state.iface.triggerMain + 1
  | _ => state.iface.triggerMain

/-- The pass over the schedule table that has not finished yet. -/
def underWay (state : Threads) : Nat :=
  match state.scheduler with
  | .processing | .marking _ _ => 1
  | _ => 0

structure Counted (state : Threads) (frames : Frames) : Prop where
  locked : LockStep state
  updates : frames.updates = frames.started + owed state
  started : frames.started = frames.finished + underWay state

theorem Counted.keep (counted : Counted state frames) (locked : LockStep next)
    (sameOwed : owed next = owed state) (sameWay : underWay next = underWay state) : Counted next frames :=
  ⟨locked, sameOwed ▸ counted.updates, sameWay ▸ counted.started⟩

private theorem owed_away {event : ThreadEvent} (away : event ≠ .main)
    (posted : next.iface.triggerMain = state.iface.triggerMain)
    (taken : state.step config event = some next) : owed next = owed state := by
  rcases step_main away taken with same | ⟨ii, remainingTime, waiting, woken | timedOut⟩
  · simp only [owed, same, posted]
  · simp only [owed, waiting, woken, posted]
  · simp only [owed, waiting, timedOut, posted]

private theorem main_counts (counted : Counted state frames) (locked : LockStep next)
    (taken : state.mainStep config = some next) : Counted next (frames.record state .main) := by
  cases mainStep_cases taken with
  | read reading =>
    simp only [Frames.record, reading]
    refine counted.keep locked ?_ rfl
    cases config.perfectScheduleMode <;> simp [owed, reading]
  | scanned same | passed same | blocked same | rescanned same | exited same | resumed same | triggered same =>
    simp only [Frames.record, same]
    exact counted.keep locked (by simp [owed, same]) rfl
  | expired same | updated same =>
    simp only [Frames.record, same]
    apply counted.keep locked
    · simp only [owed, same]
      rfl
    · rfl
  | called returned =>
    simp only [Frames.record, returned]
    have updates := counted.updates
    simp only [owed, returned] at updates
    exact ⟨locked, congrArg (· + 1) updates, counted.started⟩

private theorem beginSignal_idle : underWay (state.beginSignal config) = 0 := by
  simp only [beginSignal]
  cases config.perfectScheduleMode <;> rfl

private theorem scheduler_counts (counted : Counted state frames) (locked : LockStep next)
    (taken : state.schedulerStep config = some next) : Counted next (frames.record state .scheduler) := by
  have away : ThreadEvent.scheduler ≠ .main := by simp
  have turn (posted : next.iface.triggerMain = state.iface.triggerMain) : owed next = owed state :=
    owed_away away posted taken
  cases schedulerStep_cases taken with
  | began gathered =>
    have still := turn rfl
    have started := counted.started
    rcases gathered with same | same
    · simp only [Frames.record, same]
      apply counted.keep locked still
      rw [beginSignal_idle, underWay, same]
    · simp only [underWay, same] at started
      simp only [Frames.record, same]
      refine ⟨locked, still ▸ counted.updates, ?_⟩
      rw [beginSignal_idle]
      exact started
  | woken waits posted =>
    obtain ⟨⟨reading, _⟩, tokens⟩ := counted.locked.posted (Or.inr posted)
    have updates := counted.updates
    have started := counted.started
    simp only [owed, underWay, reading, waits] at updates started
    simp only [Frames.record, waits]
    refine ⟨locked, ?_, ?_⟩
    · simp only [owed, reading]
      omega
    · simp only [underWay]
      omega
  | @marked target mid marking =>
    simp only [Frames.record, marking]
    apply counted.keep locked (turn _)
    · simp only [underWay, marking]
    · exact (TrickCFSInterface.markTask_shared config.perfectScheduleMode mid state.iface).2.2
  | finished same | entered same | visited same | undelayed same | granted same | acknowledged same
  | polled same | checked same | abandoned same | completed same =>
    simp only [Frames.record, same]
    exact counted.keep locked (turn rfl) (by simp [underWay, same])

private theorem away_counts {event : ThreadEvent} (counted : Counted state frames) (locked : LockStep next)
    (notMain : event ≠ .main) (notScheduler : event ≠ .scheduler)
    (taken : state.step config event = some next) : Counted next (frames.record state event) := by
  have recorded : frames.record state event = frames := by
    cases event <;> first | rfl | contradiction
  rw [recorded]
  have posted : next.iface.triggerMain = state.iface.triggerMain := by
    cases byTask : event.taskOf with
    | some taskId => exact (taskEvent_roles byTask taken).triggerMain
    | none =>
      cases event <;> simp only [step] at taken
      all_goals try contradiction
      all_goals
        split at taken <;> cases taken
        rfl
  apply counted.keep locked (owed_away notMain posted taken)
  rcases (step_scheduler notScheduler taken).2 with scheduler | ⟨processing, taskId, mid, marking⟩
  · simp only [underWay, scheduler]
  · simp only [underWay, processing, marking]

namespace Counted

theorem step_preserves {event : ThreadEvent} (counted : Counted state frames)
    (taken : state.step config event = some next) : Counted next (frames.record state event) := by
  have locked := counted.locked.step_preserves taken
  by_cases isMain : event = .main
  · subst isMain
    exact main_counts counted locked taken
  · by_cases isScheduler : event = .scheduler
    · subst isScheduler
      exact scheduler_counts counted locked taken
    · exact away_counts counted locked isMain isScheduler taken

theorem host_preserves {host after : Host} {event : HostEvent} (counted : Counted host.threads frames)
    (taken : host.step config event = some after) :
    Counted after.threads (hostFrames.record frames host event) := by
  cases event with
  | thread event => exact counted.step_preserves (Host.step_thread taken).1
  | stopApp | createTask | deleteTask | exitCommand =>
    obtain ⟨iface, main, scheduler⟩ := Host.lifecycle_keeps (by simp) taken
    refine counted.keep ⟨?_, ?_⟩ ?_ ?_
    · simpa only [main, scheduler] using counted.locked.busy
    · simpa only [main, scheduler, iface] using counted.locked.tokens
    · simp only [owed, main, iface]
    · simp only [underWay, scheduler]

end Counted

/-- Neither counter exceeds one, the schedule table is processed only while the
main thread blocks in its read, and when the read of the n-th `updateCFS`
returns, n passes over the table have started and finished. -/
theorem lock_step (config : Config) (priority : Nat → Nat) {state : Host} {frames : Frames}
    (reachable : ((host config priority).watch hostFrames).Reachable (state, frames)) :
    (state.threads.iface.triggerMain ≤ 1 ∧ state.threads.iface.isMainCompleteTrigger ≤ 1) ∧
      ((state.threads.scheduler = .processing ∨
          ∃ taskId mid, state.threads.scheduler = .marking taskId mid) →
        state.threads.main = .reading ∧ state.threads.iface.isMainCompleteTrigger = 0) ∧
      (state.threads.main = .reading → ∀ next, state.step config (.thread .main) = some next →
        frames.started = frames.updates ∧ frames.finished = frames.updates) := by
  have counted : Counted state.threads frames := by
    refine Machine.invariant _ (fun watched => Counted watched.1.threads watched.2)
      ⟨.initial config, rfl, rfl⟩ ?_ reachable
    intro watched event after counted taken
    obtain ⟨taken, recorded⟩ := (Machine.watch_step _).mp taken
    rw [recorded]
    exact counted.host_preserves taken
  have locked := counted.locked
  refine ⟨?_, ?_, ?_⟩
  · have tokens := locked.tokens
    split at tokens <;> omega
  · intro atTable
    have busy : state.threads.scheduler ≠ .waiting := by
      rcases atTable with processing | ⟨taskId, mid, marking⟩
      · simp [processing]
      · simp [marking]
    exact ⟨locked.busy busy, (locked.spent (Or.inr busy)).1⟩
  · intro reading next taken
    have stepped := (Host.step_thread taken).1
    simp only [step, mainStep, reading] at stepped
    split at stepped
    next => cases stepped
    next posted =>
      obtain ⟨⟨_, waits⟩, tokens⟩ := locked.posted (Or.inl posted)
      have updates := counted.updates
      have started := counted.started
      simp only [owed, underWay, reading, waits] at updates started
      omega

def firstFrame : List HostEvent :=
  [.scheduler, .scheduler, .main, .main, .startRun, .main, .main, .main,
    .scheduler, .send 0 7, .scheduler, .scheduler, .scheduler].map .thread

private theorem firstFrame_runs :
    (((host oneTaskConfig (fun _ => 0)).watch hostFrames).run firstFrame).isSome = true := by decide

theorem lock_step_first_frame :
    let final := (((host oneTaskConfig (fun _ => 0)).watch hostFrames).run firstFrame).get firstFrame_runs
    final.1.threads.main = .reading ∧ (final.1.step oneTaskConfig (.thread .main)).isSome = true ∧
      (final.1.threads.iface.triggerMain ≤ 1 ∧ final.1.threads.iface.isMainCompleteTrigger ≤ 1) ∧
      ((final.1.threads.scheduler = .processing ∨
          ∃ taskId mid, final.1.threads.scheduler = .marking taskId mid) →
        final.1.threads.main = .reading ∧ final.1.threads.iface.isMainCompleteTrigger = 0) ∧
      (final.1.threads.main = .reading → ∀ next, final.1.step oneTaskConfig (.thread .main) = some next →
        final.2.started = final.2.updates ∧ final.2.finished = final.2.updates) := by
  refine ⟨by decide, by decide, ?_⟩
  exact lock_step oneTaskConfig (fun _ => 0) ⟨firstFrame, (Option.some_get firstFrame_runs).symm⟩

end Proofs.LockSteps
end TrickCFS
