import Mathlib.Data.List.Count
import TrickCFS.TaskIPC

/-! What the critical sections on one task record do to its three lists. Later
proofs use these facts and never unfold the operations again. -/

namespace TrickCFS.TaskIPC

@[simp] theorem mark_triggeredMIDs (mid : Nat) (task : TaskIPC) :
    (task.markPipeAsTriggered mid).triggeredMIDs = task.triggeredMIDs ++ [mid] := rfl
@[simp] theorem mark_stacks (mid : Nat) (task : TaskIPC) :
    (task.markPipeAsTriggered mid).stackList = task.stackList := rfl
@[simp] theorem mark_acknowledgedMIDs (mid : Nat) (task : TaskIPC) :
    (task.markPipeAsTriggered mid).acknowledgedMIDs = task.acknowledgedMIDs := rfl
@[simp] theorem mark_state (mid : Nat) (task : TaskIPC) :
    (task.markPipeAsTriggered mid).state = task.state := rfl
@[simp] theorem mark_usRemaining (mid : Nat) (task : TaskIPC) :
    (task.markPipeAsTriggered mid).usRemaining = task.usRemaining := rfl

@[simp] theorem setState_triggeredMIDs (state : TaskState) (task : TaskIPC) :
    (task.setState state).triggeredMIDs = task.triggeredMIDs := rfl
@[simp] theorem setState_stacks (state : TaskState) (task : TaskIPC) :
    (task.setState state).stackList = task.stackList := rfl
@[simp] theorem setState_acknowledgedMIDs (state : TaskState) (task : TaskIPC) :
    (task.setState state).acknowledgedMIDs = task.acknowledgedMIDs := rfl
@[simp] theorem setState_state (state : TaskState) (task : TaskIPC) :
    (task.setState state).state = state := rfl

@[simp] theorem addTaskDelay_triggeredMIDs (ms : Nat) (task : TaskIPC) :
    (task.addTaskDelay ms).triggeredMIDs = task.triggeredMIDs := rfl
@[simp] theorem addTaskDelay_stacks (ms : Nat) (task : TaskIPC) :
    (task.addTaskDelay ms).stackList = task.stackList := rfl
@[simp] theorem addTaskDelay_acknowledgedMIDs (ms : Nat) (task : TaskIPC) :
    (task.addTaskDelay ms).acknowledgedMIDs = task.acknowledgedMIDs := rfl
@[simp] theorem addTaskDelay_state (ms : Nat) (task : TaskIPC) :
    (task.addTaskDelay ms).state = .taskDelay := rfl

@[simp] theorem clear_triggeredMIDs (task : TaskIPC) : task.clearTriggered.triggeredMIDs = [] := rfl
@[simp] theorem clear_stacks (task : TaskIPC) : task.clearTriggered.stackList = task.stackList := rfl
@[simp] theorem clear_acknowledgedMIDs (task : TaskIPC) :
    task.clearTriggered.acknowledgedMIDs = task.acknowledgedMIDs := rfl
@[simp] theorem clear_state (task : TaskIPC) : task.clearTriggered.state = task.state := rfl

theorem updateTaskTimes_lists (tics : Int) (task : TaskIPC) :
    (task.updateTaskTimes tics).triggeredMIDs = task.triggeredMIDs ∧
    (task.updateTaskTimes tics).stackList = task.stackList ∧
    (task.updateTaskTimes tics).acknowledgedMIDs = task.acknowledgedMIDs := by
  unfold updateTaskTimes
  split
  · split <;> exact ⟨rfl, rfl, rfl⟩
  · exact ⟨rfl, rfl, rfl⟩

theorem updateTaskTimes_state (tics : Int) (task : TaskIPC) :
    (task.updateTaskTimes tics).state = task.state ∨
      task.state = .taskDelay ∧ (task.updateTaskTimes tics).state = .taskContinue := by
  unfold updateTaskTimes
  split
  next delayed =>
    split
    · exact Or.inr ⟨delayed, rfl⟩
    · exact Or.inl rfl
  next => exact Or.inl rfl

theorem updateTaskTimes_released {task : TaskIPC} {tics : Int} (delayed : task.state = .taskDelay)
    (spent : task.usRemaining - tics ≤ 0) : (task.updateTaskTimes tics).state = .taskContinue := by
  simp only [updateTaskTimes, if_pos delayed, if_pos spent]

theorem updateTaskTimes_kept {task : TaskIPC} {tics : Int}
    (held : ¬ (task.state = .taskDelay ∧ task.usRemaining - tics ≤ 0)) :
    (task.updateTaskTimes tics).state = task.state := by
  unfold updateTaskTimes
  split
  next delayed => rw [if_neg (fun spent => held ⟨delayed, spent⟩)]
  next => rfl

section Acknowledge
variable (perfect : Bool) (mid : Nat) (stack : StackInfo) {task : TaskIPC}

theorem acknowledge_found (found : mid ∈ task.triggeredMIDs) :
    task.acknowledgePipeTrigger perfect mid stack =
      { task with
        stackList := task.stackList ++ [stack]
        acknowledgedMIDs := task.acknowledgedMIDs ++ [mid]
        state := if perfect then .msgRcv else .taskRunning } := by
  simp only [acknowledgePipeTrigger, found, ite_true]

theorem acknowledge_missing (missing : mid ∉ task.triggeredMIDs) :
    task.acknowledgePipeTrigger perfect mid stack = task.setState .taskRunning := by
  simp only [acknowledgePipeTrigger, missing, ite_false, setState]

theorem acknowledge_state (task : TaskIPC) :
    (task.acknowledgePipeTrigger perfect mid stack).state =
      if mid ∈ task.triggeredMIDs ∧ perfect then .msgRcv else .taskRunning := by
  by_cases found : mid ∈ task.triggeredMIDs
  · rw [acknowledge_found perfect mid stack found]
    simp only [found, true_and]
  · rw [acknowledge_missing perfect mid stack found]
    simp only [found, false_and, if_false, setState_state]

end Acknowledge

def retires (task : TaskIPC) (mid : Nat) : Prop :=
  task.stackList ≠ [] ∧ task.acknowledgedMIDs.getLast? = some mid ∧ mid ∈ task.triggeredMIDs

theorem retiredMID_eq_some {task : TaskIPC} {mid : Nat} :
    task.retiredMID = some mid ↔ task.retires mid := by
  unfold retiredMID retires
  split
  next empty => simp [List.isEmpty_iff.mp empty]
  next some =>
    have nonempty : task.stackList ≠ [] := fun none => some (by simp [none])
    simp [nonempty, Option.filter_eq_some_iff]

section Complete
variable (stack : StackInfo) {task : TaskIPC}

theorem eraseTriggered_keeps (task : TaskIPC) :
    task.eraseTriggered.stackList = task.stackList ∧ task.eraseTriggered.state = task.state := by
  unfold eraseTriggered
  split
  · split <;> exact ⟨rfl, rfl⟩
  · exact ⟨rfl, rfl⟩

@[simp] theorem complete_stacks (task : TaskIPC) :
    (task.markPipeAsComplete stack).stackList = task.stackList.eraseP stack.foundEntry := by
  unfold markPipeAsComplete
  have kept := task.eraseTriggered_keeps
  split
  · dsimp only
    split <;> simp [eraseStack, kept]
  next empty =>
    have none : task.stackList = [] := List.length_eq_zero_iff.mp (by omega)
    simp [none]

theorem complete_retires {mid : Nat} (retired : task.retires mid) :
    (task.markPipeAsComplete stack).triggeredMIDs = task.triggeredMIDs.erase mid ∧
    (task.markPipeAsComplete stack).acknowledgedMIDs = task.acknowledgedMIDs.dropLast := by
  obtain ⟨some, last, found⟩ := retired
  have nonempty := List.length_pos_iff.mpr some
  have erased : task.eraseTriggered = { task with
      triggeredMIDs := task.triggeredMIDs.erase mid
      acknowledgedMIDs := task.acknowledgedMIDs.dropLast } := by
    simp only [eraseTriggered, last, found, ite_true]
  simp only [markPipeAsComplete, nonempty, erased, ite_true]
  split <;> exact ⟨rfl, rfl⟩

theorem complete_keeps (unretired : ∀ mid, ¬ task.retires mid) :
    (task.markPipeAsComplete stack).triggeredMIDs = task.triggeredMIDs ∧
    (task.markPipeAsComplete stack).acknowledgedMIDs = task.acknowledgedMIDs := by
  unfold markPipeAsComplete
  split
  next nonempty =>
    have some := List.length_pos_iff.mp nonempty
    have erased : task.eraseTriggered = task := by
      unfold eraseTriggered
      split
      next mid last =>
        split
        next found => exact False.elim (unretired mid ⟨some, last, found⟩)
        next => rfl
      next => rfl
    dsimp only
    rw [erased]
    split <;> exact ⟨rfl, rfl⟩
  next => exact ⟨rfl, rfl⟩

theorem complete_idle (idle : task.Idle) :
    (task.markPipeAsComplete stack).triggeredMIDs = task.triggeredMIDs ∧
    (task.markPipeAsComplete stack).stackList = task.stackList ∧
    (task.markPipeAsComplete stack).acknowledgedMIDs = task.acknowledgedMIDs := by
  have kept := complete_keeps stack (fun mid retired => retired.1 idle.2 : ∀ mid, ¬ task.retires mid)
  refine ⟨kept.1, ?_, kept.2⟩
  rw [complete_stacks, idle.2]
  rfl

/-- A completion takes one entry off both lists, or off neither. -/
theorem complete_counts (task : TaskIPC) (mid : Nat) :
    (task.markPipeAsComplete stack).triggeredMIDs.count mid + task.acknowledgedMIDs.count mid =
      task.triggeredMIDs.count mid + (task.markPipeAsComplete stack).acknowledgedMIDs.count mid := by
  by_cases retired : ∃ last, task.retires last
  · obtain ⟨last, retired⟩ := retired
    obtain ⟨triggered, acknowledged⟩ := complete_retires stack retired
    obtain ⟨-, ends, found⟩ := retired
    obtain ⟨before, split⟩ := List.getLast?_eq_some_iff.mp ends
    have some := List.count_pos_iff.mpr found
    rw [triggered, acknowledged, split, List.dropLast_concat, List.count_append, List.count_singleton,
      List.count_erase]
    by_cases same : last = mid
    · subst mid
      simp only [beq_self_eq_true, ite_true]
      omega
    · simp only [beq_iff_eq, same, ite_false]
      omega
  · obtain ⟨triggered, acknowledged⟩ :=
      complete_keeps stack (fun last retires => retired ⟨last, retires⟩)
    rw [triggered, acknowledged]

theorem length_eraseP_of_any (found : task.completesStack stack = true) :
    (task.stackList.eraseP stack.foundEntry).length + 1 = task.stackList.length := by
  obtain ⟨entry, member, same⟩ := List.any_eq_true.mp found
  have shorter := List.length_eraseP_of_mem member same
  have := List.length_pos_of_mem member
  omega

theorem eraseP_of_not_any (missing : task.completesStack stack = false) :
    task.stackList.eraseP stack.foundEntry = task.stackList := by
  apply List.eraseP_of_forall_not
  intro entry member same
  have := List.any_eq_false.mp missing entry member
  exact this same

theorem complete_state (task : TaskIPC) :
    (task.markPipeAsComplete stack).state =
      if task.completesStack stack then .taskComplete else .taskRunning := by
  have kept := task.eraseTriggered_keeps
  unfold markPipeAsComplete
  split
  next nonempty =>
    by_cases found : task.completesStack stack = true
    · have shorter : (task.stackList.eraseP stack.foundEntry).length ≠ task.stackList.length := by
        have := length_eraseP_of_any stack found
        omega
      simp [eraseStack, kept, shorter, found]
    · have same := eraseP_of_not_any stack (Bool.not_eq_true _ ▸ found)
      simp [eraseStack, kept, same, found]
  next empty =>
    have none : task.stackList = [] := List.length_eq_zero_iff.mp (by omega)
    simp [completesStack, none]

end Complete

theorem not_idle_of_outstanding {task : TaskIPC} (outstanding : task.Outstanding) : ¬ task.Idle := by
  intro ⟨triggered, stack⟩
  exact outstanding.2 ⟨by rw [triggered]; rfl, by rw [stack]; rfl⟩

end TrickCFS.TaskIPC
