import TrickCFS.Ledger
import TrickCFS.Proofs.ThreadRoles

/-! The account of one task in perfect mode: how the scheduler's counters and
the record's three lists determine each other. Every acknowledgement of a MID
is held by the task until its completion, so nested receives cannot confuse
the counts. -/

namespace TrickCFS

def requesting (task : TaskIPC) (pc : TaskPc) : Nat :=
  if pc = .awaitingPermission ∧ task.state = .msgRcv then 1 else 0

/-- The task has reported a completion that is not acknowledged yet. -/
def reporting (task : TaskIPC) (pc : TaskPc) : Nat :=
  if pc = .awaitingAcknowledgement ∧ task.state = .taskComplete then 1 else 0

def permitted (task : TaskIPC) (pc : TaskPc) : Nat :=
  if pc = .awaitingPermission ∧ task.state = .taskContinue then 1 else 0

/-- A state that the scheduler answers is written only by a task in the wait
that goes with it. -/
structure Answerable (task : TaskIPC) (pc : TaskPc) : Prop where
  delayed : task.state = .taskDelay → pc = .delayed
  received : task.state = .msgRcv → pc = .awaitingPermission
  completed : task.state = .taskComplete → pc = .awaitingAcknowledgement

/-- Acknowledgements that no completion has retired: at most one, whose MID is
still triggered. -/
def Held (task : TaskIPC) (pc : TaskPc) : Prop :=
  task.acknowledgedMIDs = [] ∧ pc ≠ .awaitingPermission ∨
    ∃ mid, task.acknowledgedMIDs = [mid] ∧ mid ∈ task.triggeredMIDs ∧ task.stackList ≠ [] ∧
      pc ≠ .receiving ∧ pc ≠ .awaitingAcknowledgement

structure Account (task : TaskIPC) (pc : TaskPc) (granted left acknowledged grants marks : Nat) : Prop where
  answerable : Answerable task pc
  held : Held task pc
  stack : task.stackList.length + acknowledged + reporting task pc = granted + requesting task pc
  triggers : task.triggeredMIDs.length + grants + requesting task pc = marks + task.acknowledgedMIDs.length
  left : left + permitted task pc = granted

namespace Account
variable {task : TaskIPC} {pc : TaskPc} {granted left acknowledged grants marks : Nat}

private theorem held_length (held : Held task pc) : task.acknowledgedMIDs.length ≤ 1 ∧
    (requesting task pc = 1 → task.acknowledgedMIDs.length = 1) ∧
    (task.acknowledgedMIDs.length = 1 → 0 < task.stackList.length ∧ 0 < task.triggeredMIDs.length) := by
  rcases held with ⟨none, away⟩ | ⟨mid, one, member, some, _⟩
  · simp [none, requesting, away]
  · refine ⟨by simp [one], fun _ => by simp [one], fun _ => ?_⟩
    exact ⟨List.length_pos_iff.mpr some, List.length_pos_of_mem member⟩

private theorem requesting_le : requesting task pc ≤ 1 := by
  simp only [requesting]
  split <;> omega

/-- While as many completions as grants are acknowledged, the triggers that are
left are those not granted yet. -/
theorem balanced (account : Account task pc granted left acknowledged grants marks)
    (balance : acknowledged = granted) : task.triggeredMIDs.length + grants = marks := by
  obtain ⟨few, asked, kept⟩ := held_length account.held
  have stack := account.stack
  have triggers := account.triggers
  have bit : requesting task pc ≤ 1 := requesting_le
  omega

/-- The scheduler acknowledges no completion of a MID whose permission the
task has not taken up. -/
theorem acknowledged_le (account : Account task pc granted left acknowledged grants marks) :
    acknowledged ≤ left := by
  have stack := account.stack
  have leaves := account.left
  by_cases waits : pc = .awaitingPermission
  · subst waits
    have some : 0 < task.stackList.length := by
      rcases account.held with ⟨_, away⟩ | ⟨_, _, _, some, _⟩
      · exact False.elim (away rfl)
      · exact List.length_pos_iff.mpr some
    have one : requesting task .awaitingPermission + permitted task .awaitingPermission ≤ 1 := by
      simp only [requesting, permitted, true_and]
      split_ifs <;> simp_all
    omega
  · simp only [requesting, permitted, waits, false_and, ite_false] at stack leaves
    omega

theorem closes (account : Account task pc granted left acknowledged grants marks)
    (enough : grants ≤ marks) (complete : marks + granted = acknowledged + grants) :
    grants = marks ∧ acknowledged = granted := by
  obtain ⟨few, asked, kept⟩ := held_length account.held
  have stack := account.stack
  have triggers := account.triggers
  have bit : requesting task pc ≤ 1 := requesting_le
  omega

theorem newFrame (account : Account task pc granted left acknowledged grants marks)
    (closed : grants = marks) : Account task pc granted left acknowledged 0 0 := by
  refine ⟨account.answerable, account.held, account.stack, ?_, account.left⟩
  have triggers := account.triggers
  omega

theorem marked (account : Account task pc granted left acknowledged grants marks) (mid : Nat) :
    Account (task.markPipeAsTriggered mid) pc granted left acknowledged grants (marks + 1) := by
  refine ⟨⟨account.answerable.delayed, account.answerable.received, account.answerable.completed⟩,
    ?_, account.stack, ?_, account.left⟩
  · apply account.held.imp id
    rintro ⟨held, one, member, some, away⟩
    exact ⟨held, one, List.mem_append_left _ member, some, away⟩
  · have triggers := account.triggers
    have same : requesting (task.markPipeAsTriggered mid) pc = requesting task pc := rfl
    simp only [same, TaskIPC.mark_triggeredMIDs, TaskIPC.mark_acknowledgedMIDs,
      List.length_append, List.length_singleton]
    omega

private theorem continue_answerable : Answerable (task.setState .taskContinue) pc :=
  ⟨by simp, by simp, by simp⟩

theorem granted_permission (account : Account task pc granted left acknowledged grants marks)
    (received : task.state = .msgRcv) :
    Account (task.setState .taskContinue) pc (granted + 1) left acknowledged (grants + 1) marks := by
  have place := account.answerable.received received
  subst place
  refine ⟨continue_answerable, account.held, ?_, ?_, ?_⟩
  · have stack := account.stack
    simp [requesting, reporting, received] at stack ⊢
    omega
  · have triggers := account.triggers
    simp [requesting, received] at triggers ⊢
    omega
  · have left := account.left
    simp [permitted, received] at left ⊢
    omega

theorem acknowledged_completion (account : Account task pc granted left acknowledged grants marks)
    (completed : task.state = .taskComplete) :
    Account (task.setState .taskContinue) pc granted left (acknowledged + 1) grants marks := by
  have place := account.answerable.completed completed
  subst place
  refine ⟨continue_answerable, account.held, ?_, ?_, ?_⟩
  · have stack := account.stack
    simp [requesting, reporting, completed] at stack ⊢
    omega
  · have triggers := account.triggers
    simpa [requesting] using triggers
  · have left := account.left
    simpa [permitted] using left

theorem woken (account : Account task pc granted left acknowledged grants marks)
    (delayed : task.state = .taskDelay) {record : TaskIPC} (state : record.state = .taskContinue)
    (lists : record.triggeredMIDs = task.triggeredMIDs ∧ record.stackList = task.stackList ∧
      record.acknowledgedMIDs = task.acknowledgedMIDs) :
    Account record pc granted left acknowledged grants marks := by
  have place := account.answerable.delayed delayed
  subst place
  obtain ⟨triggered, stack, held⟩ := lists
  refine ⟨⟨by simp [state], by simp [state], by simp [state]⟩, ?_, ?_, ?_, ?_⟩
  · simpa only [Held, triggered, stack, held] using account.held
  · simpa [requesting, reporting, stack] using account.stack
  · simpa [requesting, triggered, held] using account.triggers
  · simpa [permitted] using account.left

theorem updated (account : Account task pc granted left acknowledged grants marks) (tics : Int) :
    Account (task.updateTaskTimes tics) pc granted left acknowledged grants marks := by
  have lists := task.updateTaskTimes_lists tics
  rcases task.updateTaskTimes_state tics with same | ⟨before, after⟩
  · obtain ⟨triggered, stack, held⟩ := lists
    refine ⟨⟨?_, ?_, ?_⟩, ?_, ?_, ?_, ?_⟩
    · rw [same]; exact account.answerable.delayed
    · rw [same]; exact account.answerable.received
    · rw [same]; exact account.answerable.completed
    · simpa only [Held, triggered, stack, held] using account.held
    · simpa only [requesting, reporting, same, stack] using account.stack
    · simpa only [requesting, same, triggered, held] using account.triggers
    · simpa only [permitted, same] using account.left
  · exact account.woken before after lists

theorem moved (account : Account task pc granted left acknowledged grants marks)
    {record : TaskIPC} {after : TaskPc} (triggered : record.triggeredMIDs = task.triggeredMIDs)
    (stack : record.stackList = task.stackList) (held : record.acknowledgedMIDs = task.acknowledgedMIDs)
    (answerable : Answerable record after) (still : Held record after)
    (before : pc ≠ .awaitingPermission ∧ pc ≠ .awaitingAcknowledgement)
    (later : after ≠ .awaitingPermission ∧ after ≠ .awaitingAcknowledgement) :
    Account record after granted left acknowledged grants marks := by
  refine ⟨answerable, still, ?_, ?_, ?_⟩
  · simpa [requesting, reporting, before, later, stack] using account.stack
  · simpa [requesting, before, later, triggered, held] using account.triggers
  · simpa [permitted, before, later] using account.left

theorem none_held (account : Account task pc granted left acknowledged grants marks)
    (between : pc = .receiving ∨ pc = .awaitingAcknowledgement) : task.acknowledgedMIDs = [] := by
  rcases account.held with ⟨none, _⟩ | ⟨_, _, _, _, notReceiving, notAwaiting⟩
  · exact none
  · rcases between with same | same
    · exact False.elim (notReceiving same)
    · exact False.elim (notAwaiting same)

theorem requested (account : Account task .receiving granted left acknowledged grants marks)
    {mid : Nat} (newStack : StackInfo) (found : mid ∈ task.triggeredMIDs) :
    Account (task.acknowledgePipeTrigger true mid newStack) .awaitingPermission
      granted left acknowledged grants marks := by
  have none := account.none_held (Or.inl rfl)
  rw [TaskIPC.acknowledge_found true mid newStack found]
  refine ⟨⟨by simp, by simp, by simp⟩, ?_, ?_, ?_, ?_⟩
  · exact Or.inr ⟨mid, by simp [none], found, by simp, by simp, by simp⟩
  · have stack := account.stack
    simp [requesting, reporting] at stack ⊢
    omega
  · have triggers := account.triggers
    simp [requesting, none] at triggers ⊢
    omega
  · simpa [permitted] using account.left

theorem completed (account : Account task .completing granted left acknowledged grants marks)
    (currStack : StackInfo) :
    Account (task.markPipeAsComplete currStack)
      (if task.completesStack currStack then .awaitingAcknowledgement else .receiving)
      granted left acknowledged grants marks := by
  have state := task.complete_state currStack
  have empty : (task.markPipeAsComplete currStack).acknowledgedMIDs = [] ∧
      (task.markPipeAsComplete currStack).triggeredMIDs.length + task.acknowledgedMIDs.length =
        task.triggeredMIDs.length := by
    rcases account.held with ⟨none, _⟩ | ⟨mid, one, member, some, _⟩
    · have unretired : ∀ mid, ¬ task.retires mid := by simp [TaskIPC.retires, none]
      have kept := TaskIPC.complete_keeps currStack unretired
      exact ⟨kept.2.trans none, by simp [kept.1, none]⟩
    · have retires : task.retires mid := ⟨some, by simp [one], member⟩
      have retired := TaskIPC.complete_retires currStack retires
      refine ⟨by simp [retired.2, one], ?_⟩
      have nonempty := List.length_pos_of_mem member
      rw [retired.1, one, List.length_erase_of_mem member, List.length_singleton]
      omega
  obtain ⟨none, retired⟩ := empty
  have stack := account.stack
  have triggers := account.triggers
  have left := account.left
  simp only [requesting, reporting, permitted, reduceCtorEq, false_and, ite_false] at stack triggers left
  cases found : task.completesStack currStack with
  | true =>
    have shorter := TaskIPC.length_eraseP_of_any currStack found
    simp only [found, ite_true] at state
    refine ⟨⟨by simp [state], by simp [state], by simp⟩, Or.inl ⟨none, by simp⟩, ?_, ?_, ?_⟩
    · simp [requesting, reporting, state]
      omega
    · simp [requesting, none]
      omega
    · simpa [permitted] using left
  | false =>
    have same := TaskIPC.eraseP_of_not_any currStack found
    simp only [found, Bool.false_eq_true, ite_false] at state
    refine ⟨⟨by simp [state], by simp [state], by simp [state]⟩, Or.inl ⟨none, by simp⟩, ?_, ?_, ?_⟩
    · simp [requesting, reporting, same]
      omega
    · simp [requesting, none]
      omega
    · simpa [permitted] using left

theorem left_wait (account : Account task pc granted left acknowledged grants marks)
    (released : task.state = .taskContinue) {after : TaskPc} (loop : Threads.Leaves pc after) :
    Account (task.setState .taskRunning) after granted
      (if pc = .awaitingPermission then left + 1 else left) acknowledged grants marks := by
  have stack := account.stack
  have triggers := account.triggers
  have leaves := account.left
  have answerable (place : TaskPc) : Answerable (task.setState .taskRunning) place :=
    ⟨by simp, by simp, by simp⟩
  cases loop with
  | delay =>
    refine ⟨answerable _, ?_, ?_, ?_, ?_⟩
    · refine account.held.imp (fun none => ⟨none.1, by simp⟩) ?_
      rintro ⟨mid, one, member, some, _⟩
      exact ⟨mid, one, member, some, by simp, by simp⟩
    · simpa [requesting, reporting] using stack
    · simpa [requesting] using triggers
    · simpa [permitted] using leaves
  | permission =>
    refine ⟨answerable _, ?_, ?_, ?_, ?_⟩
    · apply account.held.imp (fun none => False.elim (none.2 rfl))
      rintro ⟨mid, one, member, some, _⟩
      exact ⟨mid, one, member, some, by simp, by simp⟩
    · simpa [requesting, reporting, released] using stack
    · simpa [requesting, released] using triggers
    · simpa [permitted, released] using leaves
  | acknowledgement =>
    refine ⟨answerable _, Or.inl ⟨account.none_held (Or.inr rfl), by simp⟩, ?_, ?_, ?_⟩
    · simpa [requesting, reporting, released] using stack
    · simpa [requesting] using triggers
    · simpa [permitted] using leaves

end Account

namespace Threads
variable {config : Config} {state : Threads} {event : ThreadEvent}

/-- No step of the main thread or of a task touches what its account says,
apart from the exits of the wait loops. -/
theorem account_move (perfect : config.perfectScheduleMode = true)
    (untimed : ∀ ii remainingTime, state.main ≠ .timedOut ii remainingTime)
    (notScheduler : event ≠ .scheduler) (stays : ∀ taskId, event ≠ .leave taskId)
    {taskId granted left acknowledged grants marks : Nat} {record : TaskIPC} {pc : TaskPc}
    (account : Account (state.task taskId) (state.tasks taskId) granted left acknowledged grants marks)
    (moved : Move config state event taskId record pc) :
    Account record pc granted left acknowledged grants marks := by
  have answerable := account.answerable
  cases moved with
  | stay => exact account
  | updated => exact account.updated config.cycleTics
  | cleared timedOut => exact False.elim (untimed taskId _ timedOut)
  | marked | continued | abandoned => exact False.elim (notScheduler rfl)
  | received running =>
    rw [running] at account answerable
    refine account.moved rfl rfl rfl ⟨?_, ?_, ?_⟩ ?_ (by simp) (by simp)
    · intro same; cases answerable.delayed same
    · intro same; cases answerable.received same
    · intro same; cases answerable.completed same
    · refine account.held.imp (fun none => ⟨none.1, by simp⟩) ?_
      rintro ⟨mid, one, member, some, _⟩
      exact ⟨mid, one, member, some, by simp, by simp⟩
  | @completed _ currStack completing =>
    rw [completing] at account
    simpa only [perfect, Bool.true_and] using account.completed currStack
  | @acknowledged _ mid newStack receiving =>
    rw [receiving] at account
    simp only [perfect, Bool.true_and, decide_eq_true_eq]
    split
    next found => exact account.requested newStack found
    next missing =>
      rw [TaskIPC.acknowledge_missing true mid newStack missing]
      exact account.moved rfl rfl rfl ⟨by simp, by simp, by simp⟩
        (Or.inl ⟨account.none_held (Or.inl rfl), by simp⟩) (by simp) (by simp)
  | noMessage receiving =>
    rw [receiving] at account answerable
    refine account.moved rfl rfl rfl ⟨?_, ?_, ?_⟩ (Or.inl ⟨account.none_held (Or.inl rfl), by simp⟩)
      (by simp) (by simp)
    · intro same; cases answerable.delayed same
    · intro same; cases answerable.received same
    · intro same; cases answerable.completed same
  | undelayed running =>
    rw [running] at account answerable
    exact account.moved rfl rfl rfl ⟨answerable.delayed, answerable.received, answerable.completed⟩
      account.held (by simp) (by simp)
  | delayed running _ enters =>
    rw [running] at account
    have none : (state.task taskId).triggeredMIDs = [] := by
      refine Classical.byContradiction (fun some => ?_)
      exact enters ⟨perfect, List.length_pos_iff.mpr some⟩
    refine account.moved rfl rfl rfl ⟨by simp, by simp, by simp⟩ ?_ (by simp) (by simp)
    rcases account.held with ⟨empty, _⟩ | ⟨mid, _, member, _⟩
    · exact Or.inl ⟨empty, by simp⟩
    · rw [none] at member
      cases member
  | left => exact False.elim (stays taskId rfl)

end Threads
end TrickCFS
