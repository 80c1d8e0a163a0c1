import TrickCFS.ConditionWaits
import TrickCFS.Proofs.FreeRunning

/-! The assignments to the state field of a record: what each step writes, who
writes TASK_CONTINUE and over which state, and where a task is when it writes. -/

namespace TrickCFS.Threads

variable {config : Config} {state next : Threads} {event : ThreadEvent}

def Wrote (state next : Threads) : Option (Nat × TaskState) → Prop
  | some (target, value) =>
    (next.task target).state = value ∧
      ∀ other, other ≠ target → (next.task other).state = (state.task other).state
  | none => ∀ other, (next.task other).state = (state.task other).state

theorem Wrote.unwritten {wrote : Option (Nat × TaskState)} {taskId : Nat} (after : Wrote state next wrote)
    (others : ∀ value, wrote ≠ some (taskId, value)) : (next.task taskId).state = (state.task taskId).state := by
  cases wrote with
  | none => exact after taskId
  | some wrote =>
    obtain ⟨target, value⟩ := wrote
    apply after.2
    intro same
    exact others value (by rw [same])

private theorem wrote_record (target : Nat) {value : TaskState} (change : TaskIPC → TaskIPC)
    (records : next.task = (state.setTask target change).task)
    (changed : (change (state.task target)).state = value) : Wrote state next (some (target, value)) := by
  constructor
  · rw [records, setTask_task]
    exact changed
  · intro other different
    rw [records, setTask_other state target change different]

private theorem wrote_nothing (target : Nat) (change : TaskIPC → TaskIPC)
    (records : next.task = (state.setTask target change).task)
    (kept : (change (state.task target)).state = (state.task target).state) : Wrote state next none := by
  intro other
  by_cases same : other = target
  · subst other
    rw [records, setTask_task]
    exact kept
  · rw [records, setTask_other state target change same]

private theorem mainStep_wrote (taken : state.mainStep config = some next) :
    Wrote state next (state.stateWrite config .main) := by
  cases mainStep_cases taken with
  | @updated ii updating inside =>
    simp only [stateWrite, updating]
    split
    next due => exact wrote_record ii _ rfl (TaskIPC.updateTaskTimes_released due.2.1 due.2.2)
    next held => exact wrote_nothing ii _ rfl (TaskIPC.updateTaskTimes_kept (fun due => held ⟨inside, due⟩))
  | @expired ii _ timedOut =>
    simp only [stateWrite, timedOut]
    exact wrote_nothing ii TaskIPC.clearTriggered rfl rfl
  | triggered updating last =>
    simp only [stateWrite, updating]
    split
    next due => exact False.elim (Nat.not_lt.mpr last due.1)
    next => exact fun _ => rfl
  | read same | scanned same | passed same | blocked same | rescanned same | exited same | resumed same
  | called same =>
    simp only [stateWrite, same]
    exact fun _ => rfl

private theorem schedulerStep_wrote (taken : state.schedulerStep config = some next) :
    Wrote state next (state.stateWrite config .scheduler) := by
  cases schedulerStep_cases taken with
  | began gathered =>
    rcases gathered with same | same
    all_goals
      simp only [stateWrite, same]
      exact fun _ => rfl
  | @marked target mid marking =>
    simp only [stateWrite, marking]
    intro other
    by_cases same : other = target
    · subst other
      by_cases running : (state.es.locateAppRecord target).running = true
      · change ((state.iface.markTask _ (state.es.locateAppRecord target) target mid).taskStates target).state = _
        rw [TrickCFSInterface.markTask_same _ mid state.iface running]
        rfl
      · simp only [Threads.task, TrickCFSInterface.markTask, running]
        rfl
    · exact congrArg TaskIPC.state (TrickCFSInterface.markTask_other _ mid state.iface same)
  | @undelayed target _ _ _ _ polling unfinished read =>
    simp only [stateWrite, polling, if_neg unfinished, read]
    exact wrote_record target (TaskIPC.setState .taskContinue) rfl rfl
  | @granted target _ _ _ _ polling unfinished more read =>
    simp only [stateWrite, polling, if_neg unfinished, read, if_pos more]
    exact wrote_record target (TaskIPC.setState .taskContinue) rfl rfl
  | @acknowledged target _ _ _ _ polling unfinished read =>
    simp only [stateWrite, polling, if_neg unfinished, read]
    exact wrote_record target (TaskIPC.setState .taskContinue) rfl rfl
  | @polled target _ _ _ _ polling unfinished undelayed ungranted unreported =>
    simp only [stateWrite, polling, if_neg unfinished]
    cases read : (state.task target).state with
    | taskDelay => exact False.elim (undelayed read)
    | taskComplete => exact False.elim (unreported read)
    | msgRcv =>
      simp only [ungranted read, ne_eq, not_true_eq_false, if_false]
      exact fun _ => rfl
    | none | taskRunning | taskContinue => exact fun _ => rfl
  | visited polling =>
    simp only [stateWrite, polling, if_true]
    exact fun _ => rfl
  | checked checking running =>
    simp only [stateWrite, checking, running, if_true]
    exact fun _ => rfl
  | @abandoned target _ _ _ _ checking dead =>
    simp only [stateWrite, checking, dead]
    exact wrote_record target (fun task => (task.setState .taskComplete).clearTriggered) rfl rfl
  | woken same | finished same | entered same | completed same =>
    simp only [stateWrite, same]
    exact fun _ => rfl

private theorem signalled_wrote (target : Nat) {value : TaskState} (change : TaskIPC → TaskIPC) (pc : TaskPc)
    (changed : (change (state.task target)).state = value) :
    Wrote state (((state.setTask target change).setPc target pc).signal target) (some (target, value)) := by
  apply wrote_record target change _ changed
  funext other
  simp

theorem step_wrote (taken : state.step config event = some next) :
    Wrote state next (state.stateWrite config event) := by
  cases event with
  | main => exact mainStep_wrote taken
  | scheduler => exact schedulerStep_wrote taken
  | mainTimeout | mainSpurious | startRun | send =>
    simp only [step] at taken
    split at taken <;> cases taken
    exact fun _ => rfl
  | createQueue | receive | noMessage =>
    simp only [step] at taken
    obtain ⟨_, _, rfl⟩ := taskStep_some taken
    exact fun _ => rfl
  | complete target currStack =>
    simp only [step] at taken
    obtain ⟨_, _, rfl⟩ := taskStep_some taken
    exact signalled_wrote target _ _ (TaskIPC.complete_state currStack _)
  | acknowledge target mid newStack =>
    simp only [step] at taken
    obtain ⟨_, _, rfl⟩ := taskStep_some taken
    exact signalled_wrote target _ _ (TaskIPC.acknowledge_state _ mid newStack _)
  | delay target ms =>
    simp only [step] at taken
    obtain ⟨_, _, rfl⟩ := taskStep_some taken
    simp only [delayStep, stateWrite]
    cases state.execMode with
    | initialization => exact fun _ => rfl
    | run =>
      simp only
      split
      · exact wrote_nothing target (fun task => { task with usRemaining := -1 }) rfl rfl
      · exact signalled_wrote target (TaskIPC.addTaskDelay ms) .delayed rfl
  | leave target =>
    simp only [step] at taken
    split at taken
    next =>
      obtain ⟨_, _, record, records, _⟩ := leaveStep_some taken
      constructor
      · rw [record]
        rfl
      · intro other different
        rw [records other different]
    next => cases taken

section Writers
variable {taskId : Nat}

theorem permits_eq_some :
    state.permits config event = some taskId ↔
      state.stateWrite config event = some (taskId, .taskContinue) := by
  unfold permits
  split
  next target writes => simp only [writes, Option.some.injEq, Prod.mk.injEq, and_true]
  next others =>
    constructor
    · intro impossible
      cases impossible
    · intro writes
      exact absurd writes (others taskId)

theorem permits_read (grants : state.stateWrite config event = some (taskId, .taskContinue)) :
    event = .main ∧ state.main = .updating taskId ∧ (state.task taskId).state = .taskDelay ∨
      event = .scheduler ∧ state.scheduler.polls = true ∧
        ((state.task taskId).state = .taskDelay ∨ (state.task taskId).state = .msgRcv ∨
          (state.task taskId).state = .taskComplete) := by
  cases event with
  | main =>
    simp only [stateWrite] at grants
    split at grants
    next ii updating =>
      split at grants
      next due =>
        cases grants
        exact Or.inl ⟨rfl, updating, due.2.1⟩
      next => cases grants
    next => cases grants
  | scheduler =>
    refine Or.inr ⟨rfl, ?_⟩
    simp only [stateWrite] at grants
    split at grants
    next polling =>
      refine ⟨by simp [polling, SchedulerPc.polls], ?_⟩
      split at grants
      next => cases grants
      next =>
        split at grants
        next read => cases grants; exact Or.inl read
        next read => cases grants; exact Or.inr (Or.inr read)
        next read =>
          split at grants
          next => cases grants; exact Or.inr (Or.inl read)
          next => cases grants
        next => cases grants
    next => split at grants <;> cases grants
    next => cases grants
  | complete | acknowledge =>
    simp only [stateWrite] at grants
    split at grants <;> cases grants
  | delay =>
    simp only [stateWrite] at grants
    repeat' split at grants
    all_goals cases grants
  | leave | mainTimeout | mainSpurious | startRun | send | createQueue | receive | noMessage => cases grants

theorem permits_others (grants : state.stateWrite config event = some (taskId, .taskContinue)) :
    event.taskOf ≠ some taskId := by
  rcases permits_read grants with ⟨rfl, _⟩ | ⟨rfl, _⟩
  all_goals
    intro byTask
    cases byTask

/-- Whoever grants a permission, the main thread is not blocked on a record. -/
theorem permits_unwaited (locked : LockStep state)
    (grants : state.stateWrite config event = some (taskId, .taskContinue))
    (taken : state.step config event = some next) (other : Nat) : next.mainWaits other = false := by
  rcases permits_read grants with ⟨rfl, updating, _⟩ | ⟨rfl, polls, _⟩
  · simp only [step, mainStep, updating, updateRecord, Option.some.injEq] at taken
    subst taken
    split <;> rfl
  · have main := (schedulerEvent_main (Or.inl rfl) taken).1
    have busy : state.scheduler ≠ .waiting := by
      intro waiting
      simp [waiting, SchedulerPc.polls] at polls
    simp only [mainWaits, main, locked.busy busy]

theorem Leaves.away {before after : TaskPc} (loop : Leaves before after) : after.announced = none := by
  cases loop <;> rfl

theorem tasks_kept (taken : state.step config event = some next) (others : event.taskOf ≠ some taskId) :
    next.tasks taskId = state.tasks taskId := by
  have moved := step_moves taken taskId
  generalize next.task taskId = record at moved
  generalize next.tasks taskId = pc at moved ⊢
  cases moved with
  | stay | updated | cleared | marked | continued | abandoned => rfl
  | received | completed | acknowledged | noMessage | undelayed | delayed | left => exact absurd rfl others

theorem task_inside (byTask : event.taskOf = some taskId) (taken : state.step config event = some next) :
    taskId < config.maxTasks := by
  cases event with
  | createQueue | receive | complete | acknowledge | noMessage | delay =>
    cases byTask
    simp only [step] at taken
    exact (taskStep_some taken).1
  | leave =>
    cases byTask
    simp only [step] at taken
    split at taken
    next inside => exact inside
    next => cases taken
  | main | mainTimeout | mainSpurious | startRun | scheduler | send => cases byTask

theorem own_step (byTask : event.taskOf = some taskId) (stays : event ≠ .leave taskId)
    (taken : state.step config event = some next) : (state.tasks taskId).announced = none := by
  cases event with
  | createQueue | receive | complete | acknowledge | noMessage | delay =>
    cases byTask
    simp only [step] at taken
    rw [(taskStep_some taken).2.1]
    rfl
  | leave =>
    cases byTask
    exact absurd rfl stays
  | main | mainTimeout | mainSpurious | startRun | scheduler | send => cases byTask

theorem stateWrite_by {value : TaskState} (writes : state.stateWrite config event = some (taskId, value)) :
    value = .taskContinue ∨ event.taskOf = some taskId ∨ (state.es.locateAppRecord taskId).running = false := by
  cases event with
  | complete | acknowledge | leave =>
    cases writes
    exact Or.inr (Or.inl rfl)
  | delay =>
    simp only [stateWrite] at writes
    repeat' split at writes
    all_goals cases writes
    exact Or.inr (Or.inl rfl)
  | main =>
    simp only [stateWrite] at writes
    repeat' split at writes
    all_goals cases writes
    exact Or.inl rfl
  | scheduler =>
    simp only [stateWrite] at writes
    repeat' split at writes
    all_goals cases writes
    · exact Or.inl rfl
    · exact Or.inl rfl
    · exact Or.inl rfl
    next dead => exact Or.inr (Or.inr (Bool.eq_false_of_not_eq_true dead))
  | mainTimeout | mainSpurious | startRun | send | createQueue | receive | noMessage => cases writes

theorem leave_enabled {announced : TaskState} (inside : taskId < config.maxTasks)
    (asks : (state.tasks taskId).announced = some announced)
    (granted : (state.task taskId).state = .taskContinue) :
    (state.step config (.leave taskId)).isSome = true := by
  simp only [step, if_pos inside, leaveStep, granted, true_or, if_true]
  cases pc : state.tasks taskId with
  | delayed | awaitingPermission | awaitingAcknowledgement => rfl
  | running | completing | receiving => simp [pc, TaskPc.announced] at asks

end Writers
end TrickCFS.Threads
