import TrickCFS.Threads

/-! The wait loops of the tasks with their condition variable. A task that finds
no permission blocks in `pthread_cond_wait`, and the signal of whoever grants
one wakes a thread that is blocked on the record then. -/

namespace TrickCFS

def TaskPc.announced : TaskPc → Option TaskState
  | .delayed => some .taskDelay
  | .awaitingPermission => some .msgRcv
  | .awaitingAcknowledgement => some .taskComplete
  | .running | .completing | .receiving => none

namespace Threads
variable (config : Config)

/-- The assignment to the state field of a record that a step makes, if any. -/
def stateWrite (state : Threads) : ThreadEvent → Option (Nat × TaskState)
  | .main =>
    match state.main with
    | .updating ii =>
      if ii < config.maxTasks ∧ (state.task ii).state = .taskDelay ∧
          (state.task ii).usRemaining - config.cycleTics ≤ 0 then
        some (ii, .taskContinue)
      else none
    | _ => none
  | .scheduler =>
    match state.scheduler with
    | .polling taskId _ reqTriggers numTriggers numCompletes =>
      if numCompletes = reqTriggers then none
      else
        match (state.task taskId).state with
        | .taskDelay | .taskComplete => some (taskId, .taskContinue)
        | .msgRcv => if numTriggers ≠ reqTriggers then some (taskId, .taskContinue) else none
        | _ => none
    | .checking taskId _ _ _ _ =>
      if (state.es.locateAppRecord taskId).running then none else some (taskId, .taskComplete)
    | _ => none
  | .complete taskId currStack =>
    some (taskId, if (state.task taskId).completesStack currStack then .taskComplete else .taskRunning)
  | .acknowledge taskId mid _ =>
    some (taskId,
      if mid ∈ (state.task taskId).triggeredMIDs ∧ config.perfectScheduleMode then .msgRcv else .taskRunning)
  | .delay taskId _ =>
    match state.execMode with
    | .initialization => none
    | .run =>
      if config.perfectScheduleMode ∧ (state.task taskId).triggeredMIDs.length > 0 then none
      else some (taskId, .taskDelay)
  | .leave taskId => some (taskId, .taskRunning)
  | .mainTimeout | .mainSpurious | .startRun | .send _ _ | .createQueue _ _ | .receive _ _ | .noMessage _ =>
    none

/-- The task that the step gives its permission to continue, if any. -/
def permits (state : Threads) (event : ThreadEvent) : Option Nat :=
  match state.stateWrite config event with
  | some (taskId, .taskContinue) => some taskId
  | _ => none

/-- The main thread is blocked on the task's record. -/
def mainWaits (taskId : Nat) (state : Threads) : Bool :=
  match state.main with
  | .waiting ii _ => ii == taskId
  | _ => false

end Threads

/-- `toMain` chooses the thread that a permission's signal wakes when both the
task and the main thread are blocked on the record. -/
inductive WaitEvent
  | thread (event : ThreadEvent) (toMain : Bool)
  | block (taskId : Nat)
  | spurious (taskId : Nat)
  deriving DecidableEq

structure ConditionThreads where
  threads : Threads
  /-- The tasks inside `pthread_cond_wait` on their own record. -/
  blocked : Nat → Bool

namespace ConditionThreads
variable (config : Config)

def setBlocked (taskId : Nat) (value : Bool) (state : ConditionThreads) : ConditionThreads :=
  { state with blocked := Function.update state.blocked taskId value }

/-- `pthread_cond_signal` by a thread that is not the task itself. -/
def signal (taskId : Nat) (toMain : Bool) (state : ConditionThreads) : ConditionThreads :=
  if state.blocked taskId ∧ ¬ (toMain ∧ state.threads.mainWaits taskId) then state.setBlocked taskId false
  else { state with threads := state.threads.signal taskId }

/-- The thread that takes the step is not blocked. -/
def awake (state : ConditionThreads) (event : ThreadEvent) : Bool :=
  match event.taskOf with
  | some taskId => !state.blocked taskId
  | none => true

def blocks (taskId : Nat) (state : ConditionThreads) : Bool :=
  decide (taskId < config.maxTasks) && (state.threads.tasks taskId).announced.isSome &&
    !state.blocked taskId && decide ((state.threads.task taskId).state ≠ .taskContinue) &&
    (state.threads.es.locateAppRecord taskId).running

def step (state : ConditionThreads) : WaitEvent → Option ConditionThreads
  | .thread event toMain =>
    if state.awake event then
      (state.threads.step config event).map (fun threads =>
        match state.threads.permits config event with
        | some taskId => { state with threads }.signal taskId toMain
        | none => { state with threads })
    else none
  | .block taskId => if state.blocks config taskId then some (state.setBlocked taskId true) else none
  | .spurious taskId => if state.blocked taskId then some (state.setBlocked taskId false) else none

end ConditionThreads

def conditionThreads (config : Config) (registeredTasks : Nat) (taskTable priority : Nat → Nat) :
    Machine ConditionThreads WaitEvent where
  initial := ⟨(threads config registeredTasks taskTable priority).initial, fun _ => false⟩
  step := ConditionThreads.step config

/-- For each task, the states over which TASK_CONTINUE has been written since the
task last left a wait loop. -/
def permissionsGiven (config : Config) : Machine.Monitor ConditionThreads WaitEvent (Nat → List TaskState) where
  start := fun _ => []
  record permissions state
    | .thread (.leave taskId) _ => Function.update permissions taskId []
    | .thread event _ =>
      match state.threads.permits config event with
      | some taskId =>
        Function.update permissions taskId (permissions taskId ++ [(state.threads.task taskId).state])
      | none => permissions
    | .block _ | .spurious _ => permissions

end TrickCFS
