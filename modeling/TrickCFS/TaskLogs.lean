import TrickCFS.TaskRuns
import TrickCFS.Threads

/-! The history of each task: the marks made on it, the acknowledgements that
found their MID, and its completions. The logs are written by a monitor, so
the machine itself does not depend on them. -/

namespace TrickCFS

def Threads.logged (state : Threads) : ThreadEvent → Nat → List TaskEvent
  | .scheduler, taskId =>
    match state.scheduler with
    | .marking target mid =>
      if target = taskId ∧ (state.es.locateAppRecord target).running then [.triggered mid] else []
    | _ => []
  | .acknowledge target mid newStack, taskId =>
    if target = taskId ∧ mid ∈ (state.task target).triggeredMIDs then [.acknowledged mid newStack] else []
  | .complete target currStack, taskId => if target = taskId then [.completed currStack] else []
  | _, _ => []

def taskLogs : Machine.Monitor Threads ThreadEvent (Nat → List TaskEvent) where
  start := fun _ => []
  record := fun logs state event taskId => logs taskId ++ state.logged event taskId

/-- A partial assignment of acknowledgements to later completions at the same
call site, by positions in a log. No completion answers twice. -/
structure Pairing (log : List TaskEvent) (partner : Nat → Option Nat) : Prop where
  answers : ∀ position answer, partner position = some answer →
    ∃ mid stack currStack, log[position]? = some (.acknowledged mid stack) ∧
      log[answer]? = some (.completed currStack) ∧ currStack.SameCallSite stack ∧ position < answer
  once : ∀ first second answer, partner first = some answer → partner second = some answer →
    first = second

def Answered (log : List TaskEvent) : Prop :=
  ∃ partner, Pairing log partner ∧
    ∀ position mid stack, log[position]? = some (.acknowledged mid stack) →
      (partner position).isSome = true

def marksOf (mid : Nat) (log : List TaskEvent) : Nat := log.count (.triggered mid)

def acknowledgementsOf (mid : Nat) (log : List TaskEvent) : Nat :=
  log.countP (fun entry => match entry with
    | .acknowledged acknowledged _ => acknowledged = mid
    | _ => false)

end TrickCFS
