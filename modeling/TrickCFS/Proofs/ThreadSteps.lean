import TrickCFS.TaskLogs
import TrickCFS.Proofs.RoleSteps
import TrickCFS.Proofs.TaskRecords

/-! What one step of the machine can do, said once. `Move` lists everything that
can happen to one task; the frame lemmas say what the steps leave alone. -/

namespace TrickCFS.Threads

variable {config : Config} {state next : Threads} {event : ThreadEvent}

section Fields
variable (state) (taskId : Nat)

@[simp] theorem setMain_task (main : MainPc) (other : Nat) :
    (state.setMain main).task other = state.task other := rfl
@[simp] theorem setMain_tasks (main : MainPc) : (state.setMain main).tasks = state.tasks := rfl
@[simp] theorem setMain_scheduler (main : MainPc) :
    (state.setMain main).scheduler = state.scheduler := rfl
@[simp] theorem setMain_iface (main : MainPc) : (state.setMain main).iface = state.iface := rfl
@[simp] theorem setMain_main (main : MainPc) : (state.setMain main).main = main := rfl

@[simp] theorem setScheduler_task (pc : SchedulerPc) (other : Nat) :
    (state.setScheduler pc).task other = state.task other := rfl
@[simp] theorem setScheduler_tasks (pc : SchedulerPc) : (state.setScheduler pc).tasks = state.tasks := rfl
@[simp] theorem setScheduler_main (pc : SchedulerPc) : (state.setScheduler pc).main = state.main := rfl
@[simp] theorem setScheduler_iface (pc : SchedulerPc) : (state.setScheduler pc).iface = state.iface := rfl
@[simp] theorem setScheduler_scheduler (pc : SchedulerPc) : (state.setScheduler pc).scheduler = pc := rfl

@[simp] theorem setTask_tasks (change : TaskIPC → TaskIPC) :
    (state.setTask taskId change).tasks = state.tasks := rfl
@[simp] theorem setTask_main (change : TaskIPC → TaskIPC) :
    (state.setTask taskId change).main = state.main := rfl
@[simp] theorem setTask_scheduler (change : TaskIPC → TaskIPC) :
    (state.setTask taskId change).scheduler = state.scheduler := rfl
@[simp] theorem setTask_task (change : TaskIPC → TaskIPC) :
    (state.setTask taskId change).task taskId = change (state.task taskId) :=
  TrickCFSInterface.updateTask_same ..

theorem setTask_other (change : TaskIPC → TaskIPC) {other : Nat} (different : other ≠ taskId) :
    (state.setTask taskId change).task other = state.task other :=
  TrickCFSInterface.updateTask_other _ _ different

@[simp] theorem setPc_task (pc : TaskPc) (other : Nat) :
    (state.setPc taskId pc).task other = state.task other := rfl
@[simp] theorem setPc_main (pc : TaskPc) : (state.setPc taskId pc).main = state.main := rfl
@[simp] theorem setPc_scheduler (pc : TaskPc) :
    (state.setPc taskId pc).scheduler = state.scheduler := rfl
@[simp] theorem setPc_iface (pc : TaskPc) : (state.setPc taskId pc).iface = state.iface := rfl
@[simp] theorem setPc_tasks (pc : TaskPc) : (state.setPc taskId pc).tasks taskId = pc :=
  Function.update_self ..

theorem setPc_other (pc : TaskPc) {other : Nat} (different : other ≠ taskId) :
    (state.setPc taskId pc).tasks other = state.tasks other :=
  Function.update_of_ne different ..

theorem signal_eq : state.signal taskId = state.setMain (state.signal taskId).main := by
  simp only [signal]
  split
  · split <;> rfl
  · rfl

@[simp] theorem signal_task (other : Nat) : (state.signal taskId).task other = state.task other := by
  rw [signal_eq]; rfl
@[simp] theorem signal_tasks : (state.signal taskId).tasks = state.tasks := by rw [signal_eq]; rfl

theorem signal_main :
    (state.signal taskId).main = state.main ∨
      ∃ remainingTime, state.main = .waiting taskId remainingTime ∧
        (state.signal taskId).main = .woken taskId := by
  simp only [signal]
  split
  next ii remainingTime waiting =>
    split
    next same => subst same; exact Or.inr ⟨remainingTime, waiting, rfl⟩
    next => exact Or.inl rfl
  next => exact Or.inl rfl

theorem not_waiting_of_signal (remainingTime : Int) :
    (state.signal taskId).main ≠ .waiting taskId remainingTime := by
  simp only [signal]
  split
  next ii other waiting =>
    split
    next same => simp
    next different =>
      rw [waiting]
      intro same
      cases same
      exact different rfl
  next missing => exact missing taskId remainingTime

end Fields

inductive Leaves : TaskPc → TaskPc → Prop
  | delay : Leaves .delayed .running
  | permission : Leaves .awaitingPermission .running
  | acknowledgement : Leaves .awaitingAcknowledgement .receiving

inductive Move (config : Config) (state : Threads) : ThreadEvent → Nat → TaskIPC → TaskPc → Prop
  | stay {event taskId} (silent : state.logged event taskId = []) :
      Move config state event taskId (state.task taskId) (state.tasks taskId)
  | updated {taskId} (updating : state.main = .updating taskId) (inside : taskId < config.maxTasks) :
      Move config state .main taskId ((state.task taskId).updateTaskTimes config.cycleTics)
        (state.tasks taskId)
  | cleared {taskId remainingTime} (timedOut : state.main = .timedOut taskId remainingTime)
      (expired : remainingAfter config remainingTime ≤ 0) :
      Move config state .main taskId (state.task taskId).clearTriggered (state.tasks taskId)
  | marked {taskId mid} (marking : state.scheduler = .marking taskId mid)
      (running : (state.es.locateAppRecord taskId).running = true) :
      Move config state .scheduler taskId ((state.task taskId).markPipeAsTriggered mid)
        (state.tasks taskId)
  | continued {taskId entries reqTriggers numTriggers numCompletes}
      (polling : state.scheduler = .polling taskId entries reqTriggers numTriggers numCompletes)
      (unfinished : numCompletes ≠ reqTriggers)
      (read : (state.task taskId).state = .taskDelay ∨
        (state.task taskId).state = .msgRcv ∧ numTriggers ≠ reqTriggers ∨
        (state.task taskId).state = .taskComplete) :
      Move config state .scheduler taskId ((state.task taskId).setState .taskContinue)
        (state.tasks taskId)
  | abandoned {taskId entries reqTriggers numTriggers numCompletes}
      (checking : state.scheduler = .checking taskId entries reqTriggers numTriggers numCompletes)
      (dead : (state.es.locateAppRecord taskId).running = false) :
      Move config state .scheduler taskId
        (((state.task taskId).setState .taskComplete).clearTriggered) (state.tasks taskId)
  | received {taskId pipeId} (running : state.tasks taskId = .running) :
      Move config state (.receive taskId pipeId) taskId (state.task taskId) .completing
  | completed {taskId currStack} (completing : state.tasks taskId = .completing) :
      Move config state (.complete taskId currStack) taskId
        ((state.task taskId).markPipeAsComplete currStack)
        (if config.perfectScheduleMode && (state.task taskId).completesStack currStack
          then .awaitingAcknowledgement else .receiving)
  | acknowledged {taskId mid newStack} (receiving : state.tasks taskId = .receiving) :
      Move config state (.acknowledge taskId mid newStack) taskId
        ((state.task taskId).acknowledgePipeTrigger config.perfectScheduleMode mid newStack)
        (if config.perfectScheduleMode && decide (mid ∈ (state.task taskId).triggeredMIDs)
          then .awaitingPermission else .running)
  | noMessage {taskId} (receiving : state.tasks taskId = .receiving) :
      Move config state (.noMessage taskId) taskId (state.task taskId) .running
  | undelayed {taskId ms} (running : state.tasks taskId = .running)
      (perfect : config.perfectScheduleMode = true) :
      Move config state (.delay taskId ms) taskId { state.task taskId with usRemaining := -1 } .running
  | delayed {taskId ms} (running : state.tasks taskId = .running) (run : state.execMode = .run)
      (enters : ¬ (config.perfectScheduleMode = true ∧ (state.task taskId).triggeredMIDs.length > 0)) :
      Move config state (.delay taskId ms) taskId ((state.task taskId).addTaskDelay ms) .delayed
  | left {taskId} {after : TaskPc}
      (granted : (state.task taskId).state = .taskContinue ∨
        (state.es.locateAppRecord taskId).running = false)
      (loop : Leaves (state.tasks taskId) after) :
      Move config state (.leave taskId) taskId ((state.task taskId).setState .taskRunning) after

private theorem moves_of_one (taskId : Nat) {event : ThreadEvent}
    (moved : Move config state event taskId (next.task taskId) (next.tasks taskId))
    (records : ∀ other, other ≠ taskId → next.task other = state.task other)
    (pcs : ∀ other, other ≠ taskId → next.tasks other = state.tasks other)
    (silent : ∀ other, other ≠ taskId → state.logged event other = []) {other : Nat} :
    Move config state event other (next.task other) (next.tasks other) := by
  by_cases same : other = taskId
  · subst other; exact moved
  · rw [records other same, pcs other same]; exact .stay (silent other same)

private theorem moves_of_none {event : ThreadEvent} (records : next.task = state.task)
    (pcs : next.tasks = state.tasks) {other : Nat} (silent : state.logged event other = []) :
    Move config state event other (next.task other) (next.tasks other) := by
  rw [records, pcs]; exact .stay silent

private theorem unmarking {taskId : Nat}
    (elsewhere : ∀ target mid, state.scheduler ≠ .marking target mid) :
    state.logged .scheduler taskId = [] := by
  cases scheduler : state.scheduler with
  | marking target mid => exact False.elim (elsewhere target mid scheduler)
  | _ => simp [logged, scheduler]

private theorem moves_of_record (target : Nat) (change : TaskIPC → TaskIPC) {event : ThreadEvent}
    (moved : Move config state event target (change (state.task target)) (state.tasks target))
    (records : next.task = (state.setTask target change).task) (pcs : next.tasks = state.tasks)
    (silent : ∀ other, other ≠ target → state.logged event other = []) (taskId : Nat) :
    Move config state event taskId (next.task taskId) (next.tasks taskId) := by
  apply moves_of_one target
  · rw [records, pcs, setTask_task]
    exact moved
  · intro other different
    rw [records]
    exact setTask_other state target change different
  · intro other _
    rw [pcs]
  · exact silent

private theorem mainStep_moves (taken : state.mainStep config = some next) (taskId : Nat) :
    Move config state .main taskId (next.task taskId) (next.tasks taskId) := by
  cases mainStep_cases taken with
  | @updated ii updating inside =>
    exact moves_of_record ii _ (.updated updating inside) rfl rfl (fun _ _ => rfl) taskId
  | @expired ii _ timedOut _ spent =>
    exact moves_of_record ii _ (.cleared timedOut spent) rfl rfl (fun _ _ => rfl) taskId
  | read | scanned | passed | blocked | rescanned | exited | resumed | called | triggered =>
    apply moves_of_none <;> rfl

private theorem schedulerStep_moves (taken : state.schedulerStep config = some next) (taskId : Nat) :
    Move config state .scheduler taskId (next.task taskId) (next.tasks taskId) := by
  cases schedulerStep_cases taken with
  | began gathered =>
    refine moves_of_none rfl rfl (unmarking ?_)
    rcases gathered with same | same <;> simp [same]
  | woken same | finished same | entered same | visited same | polled same | checked same | completed same =>
    exact moves_of_none rfl rfl (unmarking (by simp [same]))
  | @marked target mid marking =>
    by_cases running : (state.es.locateAppRecord target).running = true
    · apply moves_of_one target
      · have same : ({ state with
            iface := state.iface.markTask config.perfectScheduleMode
              (state.es.locateAppRecord target) target mid
            scheduler := SchedulerPc.processing } : Threads).task target =
              (state.task target).markPipeAsTriggered mid := by
          exact TrickCFSInterface.markTask_same _ mid state.iface running
        rw [same]
        exact .marked marking running
      · intro other different
        exact TrickCFSInterface.markTask_other _ mid state.iface different
      · intro _ _; rfl
      · intro other different
        simp [logged, marking, different.symm]
    · apply moves_of_none
      · funext other
        simp only [Threads.task, TrickCFSInterface.markTask, running]
        rfl
      · rfl
      · simp [logged, marking, running]
  | @undelayed target _ _ _ _ polling unfinished read =>
    exact moves_of_record target _ (.continued polling unfinished (Or.inl read)) rfl rfl
      (fun _ _ => unmarking (by simp [polling])) taskId
  | @granted target _ _ _ _ polling unfinished more read =>
    exact moves_of_record target _ (.continued polling unfinished (Or.inr (Or.inl ⟨read, more⟩))) rfl rfl
      (fun _ _ => unmarking (by simp [polling])) taskId
  | @acknowledged target _ _ _ _ polling unfinished read =>
    exact moves_of_record target _ (.continued polling unfinished (Or.inr (Or.inr read))) rfl rfl
      (fun _ _ => unmarking (by simp [polling])) taskId
  | @abandoned target _ _ _ _ checking dead =>
    exact moves_of_record target (fun task => (task.setState .taskComplete).clearTriggered)
      (.abandoned checking dead) rfl rfl
      (fun _ _ => unmarking (by simp [checking])) taskId

theorem taskStep_some {taskId : Nat} {pc : TaskPc} {change : Threads → Threads}
    (taken : state.taskStep config taskId pc change = some next) :
    taskId < config.maxTasks ∧ state.tasks taskId = pc ∧ change state = next := by
  simp only [taskStep] at taken
  split at taken
  next enabled =>
    cases taken
    exact ⟨enabled.1, enabled.2, rfl⟩
  next => cases taken

private theorem setTask_setPc_other {taskId other : Nat} {change : TaskIPC → TaskIPC} {pc : TaskPc}
    (different : other ≠ taskId) :
    (((state.setTask taskId change).setPc taskId pc).signal taskId).task other = state.task other ∧
    (((state.setTask taskId change).setPc taskId pc).signal taskId).tasks other = state.tasks other := by
  simp [setTask_other state taskId change different, setPc_other _ taskId pc different]

private theorem delayStep_moves {target ms : Nat} (running : state.tasks target = .running)
    (taskId : Nat) :
    Move config state (.delay target ms) taskId ((delayStep config target ms state).task taskId)
      ((delayStep config target ms state).tasks taskId) := by
  simp only [delayStep]
  split
  · exact .stay rfl
  next run =>
    split
    next kept =>
      refine moves_of_one target ?_ ?_ ?_ (fun _ _ => rfl)
      · have moved : Move config state (.delay target ms) target _ _ := .undelayed running kept.1
        simpa [running] using moved
      · intro other different
        exact setTask_other state target _ different
      · intro _ _; rfl
    next enters =>
      refine moves_of_one target ?_ ?_ ?_ (fun _ _ => rfl)
      · simpa using Move.delayed running run enters
      · intro other different
        exact (setTask_setPc_other different).1
      · intro other different
        exact (setTask_setPc_other different).2

theorem leaveStep_some {target : Nat} (taken : state.leaveStep target = some next) :
    ((state.task target).state = .taskContinue ∨ (state.es.locateAppRecord target).running = false) ∧
      Leaves (state.tasks target) (next.tasks target) ∧
      next.task target = (state.task target).setState .taskRunning ∧
      (∀ other, other ≠ target → next.task other = state.task other) ∧
      ∀ other, other ≠ target → next.tasks other = state.tasks other := by
  simp only [leaveStep] at taken
  split at taken
  next granted =>
    refine ⟨granted, ?_⟩
    cases pc : state.tasks target with
    | delayed =>
      simp only [pc, Option.some.injEq] at taken
      subst taken
      refine ⟨?_, by simp, fun other different => setTask_other state target _ different,
        fun other different => (setPc_other _ target _ different).trans rfl⟩
      simpa using Leaves.delay
    | awaitingPermission =>
      simp only [pc, Option.some.injEq] at taken
      subst taken
      refine ⟨?_, by simp, fun other different => (setTask_setPc_other different).1,
        fun other different => (setTask_setPc_other different).2⟩
      simpa using Leaves.permission
    | awaitingAcknowledgement =>
      simp only [pc, Option.some.injEq] at taken
      subst taken
      refine ⟨?_, by simp, fun other different => (setTask_setPc_other different).1,
        fun other different => (setTask_setPc_other different).2⟩
      simpa using Leaves.acknowledgement
    | running | completing | receiving => simp [pc] at taken
  next => cases taken

private theorem leaveStep_moves {target : Nat} (taken : state.leaveStep target = some next)
    (taskId : Nat) : Move config state (.leave target) taskId (next.task taskId) (next.tasks taskId) := by
  obtain ⟨granted, loop, record, records, pcs⟩ := leaveStep_some taken
  refine moves_of_one target ?_ records pcs (fun _ _ => rfl)
  rw [record]
  exact .left granted loop

/-- Only a mark gives an idle task new work. -/
theorem Move.idle {taskId : Nat} {record : TaskIPC} {pc : TaskPc}
    (moved : Move config state event taskId record pc) (idle : (state.task taskId).Idle) :
    (record.triggeredMIDs = (state.task taskId).triggeredMIDs ∧
        record.stackList = (state.task taskId).stackList ∧
        record.acknowledgedMIDs = (state.task taskId).acknowledgedMIDs) ∨
      event = .scheduler ∧ (state.es.locateAppRecord taskId).running = true ∧
        ∃ mid, state.scheduler = .marking taskId mid := by
  cases moved with
  | updated => exact Or.inl ((state.task taskId).updateTaskTimes_lists config.cycleTics)
  | cleared | abandoned => exact Or.inl ⟨idle.1.symm, rfl, rfl⟩
  | @marked _ mid marking running => exact Or.inr ⟨rfl, running, mid, marking⟩
  | @completed _ currStack => exact Or.inl (TaskIPC.complete_idle currStack idle)
  | @acknowledged _ mid newStack =>
    rw [TaskIPC.acknowledge_missing _ _ _ (by simp [idle.1])]
    exact Or.inl ⟨rfl, rfl, rfl⟩
  | stay | continued | received | noMessage | undelayed | delayed | left =>
    exact Or.inl ⟨rfl, rfl, rfl⟩

/-- The inversion of a step, as seen by any one task. -/
theorem step_moves (taken : state.step config event = some next) (taskId : Nat) :
    Move config state event taskId (next.task taskId) (next.tasks taskId) := by
  cases event with
  | main => exact mainStep_moves taken taskId
  | mainTimeout | mainSpurious =>
    simp only [step] at taken
    split at taken <;> cases taken
    refine moves_of_none ?_ ?_ ?_ <;> rfl
  | startRun | send =>
    simp only [step] at taken
    split at taken <;> cases taken
    refine moves_of_none ?_ ?_ ?_ <;> rfl
  | scheduler => exact schedulerStep_moves taken taskId
  | createQueue target pipeId =>
    simp only [step] at taken
    obtain ⟨_, _, rfl⟩ := taskStep_some taken
    refine moves_of_none ?_ ?_ ?_ <;> rfl
  | receive target pipeId =>
    simp only [step] at taken
    obtain ⟨_, running, rfl⟩ := taskStep_some taken
    refine moves_of_one target ?_ ?_ ?_ (fun _ _ => rfl)
    · rw [setPc_tasks]
      exact .received running
    · intro _ _; rfl
    · intro other different
      exact (setPc_other _ target _ different).trans rfl
  | complete target currStack =>
    simp only [step] at taken
    obtain ⟨_, completing, rfl⟩ := taskStep_some taken
    refine moves_of_one target ?_ ?_ ?_ (fun _ different => by simp [logged, different.symm])
    · simpa [completeStep] using Move.completed completing
    · intro other different
      exact (setTask_setPc_other different).1
    · intro other different
      exact (setTask_setPc_other different).2
  | acknowledge target mid newStack =>
    simp only [step] at taken
    obtain ⟨_, receiving, rfl⟩ := taskStep_some taken
    refine moves_of_one target ?_ ?_ ?_ (fun _ different => by simp [logged, different.symm])
    · simpa [acknowledgeStep] using Move.acknowledged receiving
    · intro other different
      exact (setTask_setPc_other different).1
    · intro other different
      exact (setTask_setPc_other different).2
  | noMessage target =>
    simp only [step] at taken
    obtain ⟨_, receiving, rfl⟩ := taskStep_some taken
    refine moves_of_one target ?_ ?_ ?_ (fun _ _ => rfl)
    · simpa using Move.noMessage receiving
    · intro _ _; rfl
    · intro other different
      exact (setPc_other _ target _ different).trans rfl
  | delay target ms =>
    simp only [step] at taken
    obtain ⟨_, running, rfl⟩ := taskStep_some taken
    exact delayStep_moves running taskId
  | leave target =>
    simp only [step] at taken
    split at taken
    · exact leaveStep_moves taken taskId
    · cases taken

end TrickCFS.Threads
