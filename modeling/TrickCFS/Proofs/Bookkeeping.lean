import TrickCFS.TaskRuns
import TrickCFS.Proofs.TaskRecords

/-! `triggeredMIDs`, `acknowledgedMIDs` and `stackList` grow together but shrink
apart. This module settles when the unguarded `acknowledgedMIDs.back()` is
defined, and when a trigger is retired only by an acknowledgement of its own. -/

namespace TrickCFS.Proofs.Bookkeeping
open TaskIPC

variable {perfect : Bool} {taskId : Nat}

theorem steps_cons {good : TaskIPC → TaskEvent → Prop} {task : TaskIPC} {event : TaskEvent}
    {events : List TaskEvent} :
    (taskRuns perfect taskId).Steps good task (event :: events) ↔
      good task event ∧ (taskRuns perfect taskId).Steps good (task.apply perfect event) events := by
  constructor
  · exact fun steps => steps _ rfl
  · intro steps next taken
    cases taken
    exact steps

def BackDefined (task : TaskIPC) : TaskEvent → Prop
  | .completed _ => task.stackList ≠ [] → task.acknowledgedMIDs ≠ []
  | _ => True

/-- A completion that retires a trigger also matches a call site, or has
acknowledgements to spare. -/
def KeepsPace (task : TaskIPC) : TaskEvent → Prop
  | .completed currStack => ∀ mid, task.retires mid →
      task.completesStack currStack = true ∨ task.stackList.length < task.acknowledgedMIDs.length
  | _ => True

theorem pace_preserved {task : TaskIPC} {event : TaskEvent}
    (pace : task.stackList.length ≤ task.acknowledgedMIDs.length) (keeps : KeepsPace task event) :
    (task.apply perfect event).stackList.length ≤ (task.apply perfect event).acknowledgedMIDs.length := by
  cases event with
  | triggered | cleared | written => exact pace
  | acknowledged mid stack =>
    by_cases found : mid ∈ task.triggeredMIDs
    · simpa [TaskIPC.apply, acknowledge_found perfect mid stack found] using pace
    · simpa [TaskIPC.apply, acknowledge_missing perfect mid stack found] using pace
  | completed stack =>
    simp only [TaskIPC.apply, complete_stacks]
    have shrinks := task.stackList.length_eraseP_le (p := stack.foundEntry)
    by_cases retired : ∃ mid, task.retires mid
    · obtain ⟨mid, retired⟩ := retired
      have popped := congrArg List.length (complete_retires stack retired).2
      simp only [List.length_dropLast] at popped
      rcases keeps mid retired with found | spare
      · have := length_eraseP_of_any stack found
        omega
      · omega
    · have kept := congrArg List.length (complete_keeps stack (not_exists.mp retired)).2
      omega

private theorem back_defined_of_pace {task : TaskIPC} (event : TaskEvent)
    (pace : task.stackList.length ≤ task.acknowledgedMIDs.length) : BackDefined task event := by
  cases event with
  | completed stack =>
    intro some none
    have := List.length_pos_iff.mpr some
    simp only [none, List.length_nil] at pace
    omega
  | triggered | acknowledged | cleared | written => trivial

theorem paced_run {task : TaskIPC} {events : List TaskEvent}
    (pace : task.stackList.length ≤ task.acknowledgedMIDs.length)
    (steps : (taskRuns perfect taskId).Steps KeepsPace task events) :
    (taskRuns perfect taskId).Steps BackDefined task events := by
  induction events generalizing task with
  | nil => trivial
  | cons event events ih =>
    obtain ⟨keeps, rest⟩ := steps_cons.mp steps
    exact steps_cons.mpr ⟨back_defined_of_pace event pace, ih (pace_preserved pace keeps) rest⟩

/-- Losing the pace takes exactly one completion outside the condition. -/
theorem pace_lost {task : TaskIPC} {event : TaskEvent} (loses : ¬ KeepsPace task event) :
    (task.apply perfect event).acknowledgedMIDs.length < (task.apply perfect event).stackList.length := by
  cases event with
  | triggered | acknowledged | cleared | written => exact False.elim (loses trivial)
  | completed stack =>
    simp only [KeepsPace, not_forall, not_or, Bool.not_eq_true, Nat.not_lt] at loses
    obtain ⟨mid, retired, missing, short⟩ := loses
    have popped := congrArg List.length (complete_retires stack retired).2
    have nonempty := List.length_pos_iff.mpr retired.1
    simp only [List.length_dropLast] at popped
    simp only [TaskIPC.apply, complete_stacks, eraseP_of_not_any stack missing]
    omega

/-- Once there are more call sites than acknowledgements, calls that each keep
the pace still drain `acknowledgedMIDs` under a recorded call site. -/
theorem drained {task : TaskIPC}
    (behind : task.acknowledgedMIDs.length < task.stackList.length) :
    ∃ events, (∀ event ∈ events, event.isCall = true) ∧
      (taskRuns perfect taskId).Steps KeepsPace task events ∧
      ¬ (taskRuns perfect taskId).Steps BackDefined task events := by
  induction left : task.acknowledgedMIDs.length generalizing task with
  | zero =>
    obtain ⟨stack, rest, shape⟩ := List.exists_cons_of_length_pos (Nat.zero_lt_of_lt behind)
    have none : task.acknowledgedMIDs = [] := List.length_eq_zero_iff.mp left
    refine ⟨[.completed stack], by simp [TaskEvent.isCall], ?_, ?_⟩
    · refine steps_cons.mpr ⟨?_, trivial⟩
      intro mid retired
      simp [retires, none] at retired
    · intro steps
      exact (steps_cons.mp steps).1 (by simp [shape]) none
  | succ count ih =>
    obtain ⟨stack, rest, shape⟩ := List.exists_cons_of_length_pos (Nat.zero_lt_of_lt behind)
    have some : task.acknowledgedMIDs ≠ [] := List.length_pos_iff.mp (by omega)
    let mid := task.acknowledgedMIDs.getLast some
    let marked := task.markPipeAsTriggered mid
    have retired : marked.retires mid :=
      ⟨by simp [marked, shape], by simp [marked, mid, List.getLast?_eq_getLast_of_ne_nil some],
        by simp [marked]⟩
    have found : marked.completesStack stack = true := by
      simp [marked, completesStack, shape]
    have popped := congrArg List.length (complete_retires stack retired).2
    have matched := length_eraseP_of_any stack found
    simp only [List.length_dropLast] at popped
    change _ = task.acknowledgedMIDs.length - 1 at popped
    change (task.stackList.eraseP stack.foundEntry).length + 1 = task.stackList.length at matched
    have still : (marked.markPipeAsComplete stack).acknowledgedMIDs.length <
        (marked.markPipeAsComplete stack).stackList.length := by
      simp only [complete_stacks]
      change _ < (task.stackList.eraseP stack.foundEntry).length
      omega
    obtain ⟨events, calls, paced, undefined⟩ := ih still (by omega)
    refine ⟨.triggered mid :: .completed stack :: events, ?_, ?_, ?_⟩
    · simpa [TaskEvent.isCall] using calls
    · exact steps_cons.mpr ⟨trivial, steps_cons.mpr ⟨fun _ _ => Or.inl found, paced⟩⟩
    · intro steps
      exact undefined (steps_cons.mp (steps_cons.mp steps).2).2

/-- Every run that keeps the pace reads `acknowledgedMIDs.back()` only of a
non-empty list. The condition cannot be weakened: after any operation outside
it, calls that all keep the pace lead to a read of an empty list. -/
theorem acknowledged_back_defined (perfect : Bool) (taskId : Nat) :
    (∀ events, (taskRuns perfect taskId).Steps KeepsPace (.fresh taskId) events →
      (taskRuns perfect taskId).Steps BackDefined (.fresh taskId) events) ∧
    (∀ task event, ¬ KeepsPace task event →
      ∃ events, (∀ call ∈ events, call.isCall = true) ∧
        (taskRuns perfect taskId).Steps KeepsPace (task.apply perfect event) events ∧
        ¬ (taskRuns perfect taskId).Steps BackDefined (task.apply perfect event) events) := by
  constructor
  · intro events steps
    exact paced_run (Nat.le_refl 0) steps
  · intro task event loses
    exact drained (pace_lost loses)

def receiveSite : StackInfo := .backtrace [1, 2, 3, 40]
def pollSite : StackInfo := .backtrace [1, 2, 3, 50]

theorem acknowledged_back_defined_nested :
    (taskRuns true 0).Steps BackDefined (.fresh 0)
      [.triggered 7, .acknowledged 7 receiveSite, .completed receiveSite] ∧
    ∃ events, (∀ call ∈ events, call.isCall = true) ∧
      (taskRuns true 0).Steps KeepsPace
        (({ taskId := 0, triggeredMIDs := [7], stackList := [receiveSite], acknowledgedMIDs := [7] } :
          TaskIPC).apply true (.completed pollSite)) events ∧
      ¬ (taskRuns true 0).Steps BackDefined
        (({ taskId := 0, triggeredMIDs := [7], stackList := [receiveSite], acknowledgedMIDs := [7] } :
          TaskIPC).apply true (.completed pollSite)) events := by
  constructor
  · apply (acknowledged_back_defined true 0).1
    refine steps_cons.mpr ⟨trivial, steps_cons.mpr ⟨trivial, steps_cons.mpr ⟨?_, trivial⟩⟩⟩
    exact fun _ _ => Or.inl (by decide)
  · apply (acknowledged_back_defined true 0).2
    intro keeps
    have stuck := keeps 7 ⟨by decide, by decide, by decide⟩
    revert stuck
    decide

/-- A poll from another call site retires the acknowledgement of the message
being handled and leaves its call site behind; the next receive reads nothing. -/
theorem nested_poll_reads_empty :
    ¬ ∀ (perfect : Bool) (events : List TaskEvent), (∀ call ∈ events, call.isCall = true) →
      (taskRuns perfect 0).Steps BackDefined (.fresh 0) events := by
  intro always
  have steps := always false [.triggered 7, .completed receiveSite, .acknowledged 7 receiveSite,
    .completed pollSite, .completed receiveSite] (by decide)
  obtain ⟨_, steps⟩ := steps_cons.mp steps
  obtain ⟨_, steps⟩ := steps_cons.mp steps
  obtain ⟨_, steps⟩ := steps_cons.mp steps
  obtain ⟨_, steps⟩ := steps_cons.mp steps
  exact (steps_cons.mp steps).1 (by decide) (by decide)

end TrickCFS.Proofs.Bookkeeping
