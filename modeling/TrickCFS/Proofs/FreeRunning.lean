import TrickCFS.Proofs.ThreadRoles

/-! Non-perfect mode: the scheduler task never polls the app tasks, and a task's
position is known from its state field. -/

namespace TrickCFS

def SchedulerPc.polls : SchedulerPc → Bool
  | .iterating _ | .polling .. | .checking .. => true
  | .starting | .waiting | .processing | .marking .. | .completing => false

/-- In non-perfect mode a task waits only in `addTaskDelay`, and it is there
exactly while its state says so. -/
structure Placed (task : TaskIPC) (pc : TaskPc) : Prop where
  delayed : pc = .delayed ↔ task.state = .taskDelay ∨ task.state = .taskContinue
  unpermitted : pc ≠ .awaitingPermission
  unacknowledged : pc ≠ .awaitingAcknowledgement

namespace Placed
variable {task : TaskIPC} {pc : TaskPc}

theorem undelayed (placed : Placed task pc) (elsewhere : pc ≠ .delayed) : task.state ≠ .taskDelay :=
  fun delayed => elsewhere (placed.delayed.mpr (Or.inl delayed))

theorem of_running {record : TaskIPC} {after : TaskPc} (running : record.state = .taskRunning)
    (place : after = .running ∨ after = .completing ∨ after = .receiving) : Placed record after := by
  rcases place with rfl | rfl | rfl
  all_goals exact ⟨by simp [running], by simp, by simp⟩

theorem replace (placed : Placed task pc) {record : TaskIPC} {after : TaskPc}
    (same : record.state = task.state) (before : pc ≠ .delayed)
    (place : after = .running ∨ after = .completing ∨ after = .receiving) : Placed record after := by
  have none : ¬ (task.state = .taskDelay ∨ task.state = .taskContinue) :=
    fun waits => before (placed.delayed.mpr waits)
  rcases place with rfl | rfl | rfl
  all_goals exact ⟨by simpa [same] using none, by simp, by simp⟩

theorem leaves (placed : Placed task pc) {after : TaskPc} (loop : Threads.Leaves pc after) :
    after = .running := by
  cases loop with
  | delay => rfl
  | permission => exact False.elim (placed.unpermitted rfl)
  | acknowledgement => exact False.elim (placed.unacknowledged rfl)

end Placed

namespace Threads
variable {config : Config} {state next : Threads} {event : ThreadEvent}

structure FreeRunning (state : Threads) : Prop where
  running : ∀ taskId, (state.es.locateAppRecord taskId).running = true
  unstopped : state.exitCmd = false
  unpolled : state.scheduler.polls = false
  placed : ∀ taskId, Placed (state.task taskId) (state.tasks taskId)

namespace FreeRunning

theorem initial (config : Config) {registeredTasks : Nat} {taskTable priority : Nat → Nat} :
    FreeRunning (threads config registeredTasks taskTable priority).initial where
  running := fun _ => rfl
  unstopped := rfl
  unpolled := rfl
  placed := fun _ => ⟨by simp [threads, task], by simp [threads], by simp [threads]⟩

private theorem schedulerStep_unpolled (free : config.perfectScheduleMode = false)
    (unpolled : state.scheduler.polls = false) (taken : state.schedulerStep config = some next) :
    next.scheduler.polls = false := by
  cases schedulerStep_cases taken with
  | began => simp [beginSignal, free, SchedulerPc.polls]
  | woken | marked | finished | completed => rfl
  | entered same | visited same | undelayed same | granted same | acknowledged same | polled same
  | checked same | abandoned same => simp [same, SchedulerPc.polls] at unpolled

theorem step_unpolled (free : config.perfectScheduleMode = false)
    (unpolled : state.scheduler.polls = false) (taken : state.step config event = some next) :
    next.scheduler.polls = false := by
  by_cases isScheduler : event = .scheduler
  · subst isScheduler
    exact schedulerStep_unpolled free unpolled taken
  · rcases (step_scheduler isScheduler taken).2 with same | ⟨_, taskId, mid, marking⟩
    · rw [same]
      exact unpolled
    · rw [marking]
      rfl

private theorem move_placed (free : config.perfectScheduleMode = false) (holds : FreeRunning state)
    {taskId : Nat} {record : TaskIPC} {pc : TaskPc} (moved : Move config state event taskId record pc) :
    Placed record pc := by
  have placed := holds.placed taskId
  cases moved with
  | stay => exact placed
  | updated =>
    refine ⟨?_, placed.unpermitted, placed.unacknowledged⟩
    rw [placed.delayed]
    rcases (state.task taskId).updateTaskTimes_state config.cycleTics with same | ⟨before, after⟩
    · rw [same]
    · simp [before, after]
  | cleared | marked => exact ⟨placed.delayed, placed.unpermitted, placed.unacknowledged⟩
  | continued polling =>
    have unpolled := holds.unpolled
    simp [polling, SchedulerPc.polls] at unpolled
  | abandoned checking =>
    have unpolled := holds.unpolled
    simp [checking, SchedulerPc.polls] at unpolled
  | received running => exact placed.replace rfl (by simp [running]) (by simp)
  | completed completing =>
    have undelayed : (state.task taskId).state ≠ .taskDelay := placed.undelayed (by simp [completing])
    simp only [free, Bool.false_and, Bool.false_eq_true, ite_false]
    refine ⟨?_, by simp, by simp⟩
    rw [TaskIPC.complete_state]
    split <;> simp
  | acknowledged receiving =>
    simp only [free, Bool.false_and, Bool.false_eq_true, ite_false]
    refine .of_running ?_ (by simp)
    simp only [TaskIPC.acknowledgePipeTrigger]
    split <;> simp
  | noMessage receiving => exact placed.replace rfl (by simp [receiving]) (by simp)
  | undelayed _ perfect => simp [free] at perfect
  | delayed => exact ⟨by simp, by simp, by simp⟩
  | left granted loop =>
    obtain rfl := placed.leaves loop
    exact .of_running rfl (by simp)

theorem step_preserves (free : config.perfectScheduleMode = false) (holds : FreeRunning state)
    (taken : state.step config event = some next) : FreeRunning next := by
  obtain ⟨es, exitCmd⟩ := step_fixed taken
  refine ⟨?_, ?_, step_unpolled free holds.unpolled taken, ?_⟩
  · rw [es]; exact holds.running
  · rw [exitCmd]; exact holds.unstopped
  · intro taskId
    exact move_placed free holds (step_moves taken taskId)

end FreeRunning
end Threads

end TrickCFS
