import TrickCFS.Library.Machine
import TrickCFS.TaskIPC

/-! One task record under any sequence of the operations that reach it: the
scheduler's marks, the task's own receives, a clear of `triggeredMIDs`, and the
writes of the state field that grant or end a wait. -/

namespace TrickCFS

inductive TaskEvent
  | triggered (mid : Nat)
  | acknowledged (mid : Nat) (newStack : StackInfo)
  | completed (currStack : StackInfo)
  | cleared
  | written (state : TaskState)
  deriving DecidableEq

/-- The calls of `markPipeAsTriggered`, `acknowledgePipeTrigger` and
`markPipeAsComplete`; the other two events come from other threads. -/
def TaskEvent.isCall : TaskEvent → Bool
  | .triggered _ | .acknowledged _ _ | .completed _ => true
  | .cleared | .written _ => false

namespace TaskIPC

def fresh (taskId : Nat) : TaskIPC := { taskId }

def apply (perfectScheduleMode : Bool) (task : TaskIPC) : TaskEvent → TaskIPC
  | .triggered mid => task.markPipeAsTriggered mid
  | .acknowledged mid newStack => task.acknowledgePipeTrigger perfectScheduleMode mid newStack
  | .completed currStack => task.markPipeAsComplete currStack
  | .cleared => task.clearTriggered
  | .written state => task.setState state

end TaskIPC

def taskRuns (perfectScheduleMode : Bool) (taskId : Nat) : Machine TaskIPC TaskEvent where
  initial := .fresh taskId
  step := fun task event => some (task.apply perfectScheduleMode event)

end TrickCFS
