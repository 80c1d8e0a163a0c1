import TrickCFS.Library.Machine
import TrickCFS.TrickCFSInterface

/-! The Trick main thread, the scheduler task and the app tasks as one machine.
A step of a thread is one critical section of the source, so every schedule of
events is an interleaving at critical-section granularity. A condition wait is
split into blocking, waking (or timing out) and re-acquiring the mutex. -/

namespace TrickCFS

/-- The main thread. It starts inside the wait of `initialize`. -/
inductive MainPc
  | reading
  | scanning (ii : Nat)
  | waiting (ii : Nat) (remainingTime : Int)
  | woken (ii : Nat)
  | timedOut (ii : Nat) (remainingTime : Int)
  | returned
  | updating (ii : Nat)
  deriving DecidableEq

inductive SchedulerPc
  | starting
  | waiting
  | processing
  | marking (taskId mid : Nat)
  | iterating (entries : List (Nat × Nat))
  | polling (taskId : Nat) (entries : List (Nat × Nat)) (reqTriggers numTriggers numCompletes : Nat)
  | checking (taskId : Nat) (entries : List (Nat × Nat)) (reqTriggers numTriggers numCompletes : Nat)
  | completing
  deriving DecidableEq

/-- An app task: in its own code, between the two sections of
`markPipeAsComplete`, in the queue receive, or in one of the wait loops. -/
inductive TaskPc
  | running
  | completing
  | receiving
  | delayed
  | awaitingPermission
  | awaitingAcknowledgement
  deriving DecidableEq

inductive ExecMode
  | initialization
  | run
  deriving DecidableEq

structure Threads where
  iface : TrickCFSInterface
  es : EsGlobal
  execMode : ExecMode
  exitCmd : Bool
  main : MainPc
  scheduler : SchedulerPc
  tasks : Nat → TaskPc

inductive ThreadEvent
  | main
  | mainTimeout
  | mainSpurious
  | startRun
  | scheduler
  | send (pipeId mid : Nat)
  | createQueue (taskId pipeId : Nat)
  | receive (taskId pipeId : Nat)
  | complete (taskId : Nat) (currStack : StackInfo)
  | acknowledge (taskId mid : Nat) (newStack : StackInfo)
  | noMessage (taskId : Nat)
  | delay (taskId ms : Nat)
  | leave (taskId : Nat)
  deriving DecidableEq

def ThreadEvent.taskOf : ThreadEvent → Option Nat
  | .createQueue taskId _ | .receive taskId _ | .complete taskId _ | .acknowledge taskId _ _
  | .noMessage taskId | .delay taskId _ | .leave taskId => some taskId
  | .main | .mainTimeout | .mainSpurious | .startRun | .scheduler | .send _ _ => none

namespace Threads

def task (state : Threads) (taskId : Nat) : TaskIPC := state.iface.taskStates taskId

def setTask (taskId : Nat) (change : TaskIPC → TaskIPC) (state : Threads) : Threads :=
  { state with iface := state.iface.updateTask taskId change }

def setPc (taskId : Nat) (pc : TaskPc) (state : Threads) : Threads :=
  { state with tasks := Function.update state.tasks taskId pc }

def setMain (main : MainPc) (state : Threads) : Threads := { state with main }

def setScheduler (scheduler : SchedulerPc) (state : Threads) : Threads := { state with scheduler }

/-- `pthread_cond_signal` on a record's `cv`, seen by the main thread. With
nobody blocked there the signal is lost. -/
def signal (taskId : Nat) (state : Threads) : Threads :=
  match state.main with
  | .waiting ii _ => if ii = taskId then state.setMain (.woken ii) else state
  | _ => state

variable (config : Config)

/-- The head of the loop of `TrickWaitForCFSComplete`, up to its timed wait. -/
def scan (ii : Nat) (state : Threads) : Threads :=
  if ii < state.es.registeredTasks then
    if state.exitCmd then state.setMain .returned
    else if (state.task ii).Outstanding then
      let remainingTime :=
        if config.msWaitTimeForCFSApps = -1 then 5000 else config.msWaitTimeForCFSApps
      if remainingTime > 0 then state.setMain (.waiting ii remainingTime)
      else state.setMain (.scanning (ii + 1))
    else state.setMain (.scanning (ii + 1))
  else state.setMain .returned

def remainingAfter (remainingTime : Int) : Int :=
  let pollTime := if remainingTime < 5000 then remainingTime else 5000
  let remainingTime :=
    if config.msWaitTimeForCFSApps = -1 then remainingTime + pollTime else remainingTime
  remainingTime - pollTime

/-- The timed wait has returned `ETIMEDOUT` and holds the mutex again. -/
def reacquire (ii : Nat) (remainingTime : Int) (state : Threads) : Threads :=
  if state.exitCmd then state.setMain (.scanning (ii + 1))
  else if remainingAfter config remainingTime ≤ 0 then
    (state.setTask ii TaskIPC.clearTriggered).setMain (.scanning (ii + 1))
  else state.setMain (.waiting ii (remainingAfter config remainingTime))

def updateRecord (ii : Nat) (state : Threads) : Threads :=
  if ii < config.maxTasks then
    (state.setTask ii (TaskIPC.updateTaskTimes config.cycleTics)).setMain (.updating (ii + 1))
  else
    { state with
      iface := { state.iface with triggerMain := state.iface.triggerMain + 1 }
      main := .reading }

/-- A write to the event counter adds one; a read blocks at zero and clears it. -/
def mainStep (state : Threads) : Option Threads :=
  match state.main with
  | .reading =>
    if state.iface.isMainCompleteTrigger = 0 then none
    else
      some { state with
        iface := { state.iface with isMainCompleteTrigger := 0 }
        main := if config.perfectScheduleMode then .returned else .scanning 0 }
  | .scanning ii => some (state.scan config ii)
  | .waiting _ _ => none
  | .woken ii => some (state.setMain (.scanning ii))
  | .timedOut ii remainingTime => some (state.reacquire config ii remainingTime)
  | .returned => if state.execMode = .run then some (state.setMain (.updating 0)) else none
  | .updating ii => some (state.updateRecord config ii)

/-- The switch of `signalMainAppComplete` on the state of one task. -/
def poll (taskId : Nat) (entries : List (Nat × Nat)) (reqTriggers numTriggers numCompletes : Nat)
    (state : Threads) : Threads :=
  if numCompletes = reqTriggers then state.setScheduler (.iterating entries)
  else
    match (state.task taskId).state with
    | .taskDelay =>
      (state.setTask taskId (TaskIPC.setState .taskContinue)).setScheduler
        (.checking taskId entries reqTriggers numTriggers numCompletes)
    | .msgRcv =>
      if numTriggers ≠ reqTriggers then
        (state.setTask taskId (TaskIPC.setState .taskContinue)).setScheduler
          (.checking taskId entries reqTriggers (numTriggers + 1) numCompletes)
      else state.setScheduler (.checking taskId entries reqTriggers numTriggers numCompletes)
    | .taskComplete =>
      (state.setTask taskId (TaskIPC.setState .taskContinue)).setScheduler
        (.checking taskId entries reqTriggers numTriggers (numCompletes + 1))
    | _ => state.setScheduler (.checking taskId entries reqTriggers numTriggers numCompletes)

def beginSignal (state : Threads) : Threads :=
  state.setScheduler
    (if config.perfectScheduleMode then .iterating state.iface.perfectFDMap else .completing)

def schedulerStep (state : Threads) : Option Threads :=
  match state.scheduler with
  | .starting => some (state.beginSignal config)
  | .waiting =>
    if state.iface.triggerMain = 0 then none
    else
      some { state with
        iface := { state.iface with triggerMain := 0 }
        scheduler := .processing }
  | .processing => some (state.beginSignal config)
  | .marking taskId mid =>
    some { state with
      iface := state.iface.markTask config.perfectScheduleMode (state.es.locateAppRecord taskId) taskId mid
      scheduler := .processing }
  | .iterating [] =>
    some { state with
      iface := { state.iface with perfectFDMap := [] }
      scheduler := .completing }
  | .iterating (entry :: entries) =>
    some (state.setScheduler (.polling entry.2 entries (state.task entry.2).triggeredMIDs.length 0 0))
  | .polling taskId entries reqTriggers numTriggers numCompletes =>
    some (state.poll taskId entries reqTriggers numTriggers numCompletes)
  | .checking taskId entries reqTriggers numTriggers numCompletes =>
    if (state.es.locateAppRecord taskId).running then
      some (state.setScheduler (.polling taskId entries reqTriggers numTriggers numCompletes))
    else
      some ((state.setTask taskId (fun task => (task.setState .taskComplete).clearTriggered)).setScheduler
        (.polling taskId entries reqTriggers numTriggers reqTriggers))
  | .completing =>
    some { state with
      iface := { state.iface with isMainCompleteTrigger := state.iface.isMainCompleteTrigger + 1 }
      scheduler := .waiting }

def completeStep (taskId : Nat) (currStack : StackInfo) (state : Threads) : Threads :=
  let waits := config.perfectScheduleMode && (state.task taskId).completesStack currStack
  ((state.setTask taskId (TaskIPC.markPipeAsComplete currStack)).setPc taskId
    (if waits then .awaitingAcknowledgement else .receiving)).signal taskId

def acknowledgeStep (taskId mid : Nat) (newStack : StackInfo) (state : Threads) : Threads :=
  let waits := config.perfectScheduleMode && decide (mid ∈ (state.task taskId).triggeredMIDs)
  ((state.setTask taskId
    (TaskIPC.acknowledgePipeTrigger config.perfectScheduleMode mid newStack)).setPc taskId
    (if waits then .awaitingPermission else .running)).signal taskId

/-- During initialization `addTaskDelay` sleeps in wall-clock time and leaves
the record alone; in perfect mode a triggered task does not enter the delay. -/
def delayStep (taskId ms : Nat) (state : Threads) : Threads :=
  match state.execMode with
  | .initialization => state
  | .run =>
    if config.perfectScheduleMode ∧ (state.task taskId).triggeredMIDs.length > 0 then
      state.setTask taskId (fun task => { task with usRemaining := -1 })
    else
      ((state.setTask taskId (TaskIPC.addTaskDelay ms)).setPc taskId .delayed).signal taskId

def leaveStep (taskId : Nat) (state : Threads) : Option Threads :=
  if (state.task taskId).state = .taskContinue ∨ (state.es.locateAppRecord taskId).running = false then
    let resumed := state.setTask taskId (TaskIPC.setState .taskRunning)
    match state.tasks taskId with
    | .delayed => some (resumed.setPc taskId .running)
    | .awaitingPermission => some ((resumed.setPc taskId .running).signal taskId)
    | .awaitingAcknowledgement => some ((resumed.setPc taskId .receiving).signal taskId)
    | _ => none
  else none

def taskStep (taskId : Nat) (pc : TaskPc) (next : Threads → Threads) (state : Threads) :
    Option Threads :=
  if taskId < config.maxTasks ∧ state.tasks taskId = pc then some (next state) else none

def step (state : Threads) : ThreadEvent → Option Threads
  | .main => state.mainStep config
  | .mainTimeout =>
    match state.main with
    | .waiting ii remainingTime => some (state.setMain (.timedOut ii remainingTime))
    | _ => none
  | .mainSpurious =>
    match state.main with
    | .waiting ii _ => some (state.setMain (.woken ii))
    | _ => none
  | .startRun =>
    if state.main = .returned ∧ state.execMode = .initialization then
      some { state with execMode := .run }
    else none
  | .scheduler => state.schedulerStep config
  | .send pipeId mid =>
    if state.scheduler = .processing then
      some (state.setScheduler (.marking (state.iface.prevPipeTaskOwner pipeId) mid))
    else none
  | .createQueue taskId pipeId =>
    state.taskStep config taskId .running
      (fun state => { state with iface := state.iface.setPipeOwner pipeId taskId })
  | .receive taskId pipeId =>
    state.taskStep config taskId .running
      (fun state => { state with iface := state.iface.setPipeOwner pipeId taskId }.setPc taskId .completing)
  | .complete taskId currStack =>
    state.taskStep config taskId .completing (completeStep config taskId currStack)
  | .acknowledge taskId mid newStack =>
    state.taskStep config taskId .receiving (acknowledgeStep config taskId mid newStack)
  | .noMessage taskId => state.taskStep config taskId .receiving (setPc taskId .running)
  | .delay taskId ms => state.taskStep config taskId .running (delayStep config taskId ms)
  | .leave taskId => if taskId < config.maxTasks then state.leaveStep taskId else none

end Threads

/-- The machine that runs with a fixed set of tasks, all of whose apps are
RUNNING, and no exit command: no event below changes either. -/
def threads (config : Config) (registeredTasks : Nat) (taskTable : Nat → Nat) (priority : Nat → Nat) :
    Machine Threads ThreadEvent where
  initial :=
    { iface := {}
      es := { registeredTasks, taskTable, appTable := fun appId => ⟨true, priority appId⟩ }
      execMode := .initialization
      exitCmd := false
      main := .reading
      scheduler := .starting
      tasks := fun _ => .running }
  step := Threads.step config

end TrickCFS
