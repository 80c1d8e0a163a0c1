import TrickCFS.Library.Machine
import TrickCFS.TrickCFSInterface
import TrickCFS.TrickCFSQueue

/-! One call of `OS_QueueGet_Impl`, in non-perfect mode alone: the permissions that
perfect mode grants a task between two polls are not part of it. The task polls
its queue, and between two polls of a finite timeout it delays until the main
thread's next update of the task times. What the queue answers is part of the
event. -/

namespace TrickCFS

/-- The branch that the timeout selects. `once` is a finite timeout during
initialization. -/
inductive ReceiveKind
  | pend
  | check
  | once
  | polling
  deriving DecidableEq

inductive QueueGetCode
  | success
  | queueEmpty
  | failed (code : OsError)
  deriving DecidableEq

inductive QueueGetPc
  | receiving (kind : ReceiveKind)
  | delayed
  | returned (code : QueueGetCode)
  deriving DecidableEq

/-- The answer of `TrickCFSQueue::receive`. A received pointer into the software
bus's memory carries a MID. -/
inductive ReceiveAnswer
  | received (mid : Option Nat) (newStack : StackInfo)
  | failed (code : OsError)
  deriving DecidableEq

structure QueueGet where
  pc : QueueGetPc
  timeout : Int
  /-- A `uint32`. -/
  schRate : Nat
  task : TaskIPC

/-- `receive` is `markPipeAsComplete` with the queue's receive after it. -/
inductive QueueGetEvent
  | receive (currStack : StackInfo) (answer : ReceiveAnswer)
  | updateTaskTimes
  | leave
  deriving DecidableEq

namespace QueueGet

/-- `timeout -= schRate` on an `int32` and a `uint32`. -/
def subtractRate (timeout : Int) (schRate : Nat) : Int := (timeout - schRate).bmod (2 ^ 32)

/-- The entry of the call. `OS_PEND` is minus one, `OS_CHECK` is zero. -/
def enter (initialization : Bool) (minorFrameMs : Nat) (timeout : Int) (task : TaskIPC) : QueueGet where
  pc := .receiving
    (if timeout = -1 then .pend
    else if timeout = 0 then .check
    else if initialization then .once
    else .polling)
  timeout := timeout
  schRate := minorFrameMs % 2 ^ 32
  task := task

def finish (code : QueueGetCode) (state : QueueGet) : QueueGet := { state with pc := .returned code }

def timedOut (state : QueueGet) : QueueGet :=
  let timeout := subtractRate state.timeout state.schRate
  if timeout > 0 then { state with timeout, pc := .delayed, task := state.task.addTaskDelay 0 }
  else { state with timeout, pc := .returned (.failed .queueTimeout) }

def answered (kind : ReceiveKind) (answer : ReceiveAnswer) (state : QueueGet) : QueueGet :=
  match answer with
  | .received (some mid) newStack =>
    { state with task := state.task.acknowledgePipeTrigger false mid newStack }.finish .success
  | .received none _ => state.finish .success
  | .failed code =>
    if code = .queueTimeout then
      match kind with
      | .polling => state.timedOut
      | .check => state.finish .queueEmpty
      | .pend | .once => state.finish (.failed .queueTimeout)
    else state.finish (.failed code)

def step (cycleTics : Int) (state : QueueGet) : QueueGetEvent → Option QueueGet
  | .receive currStack answer =>
    match state.pc with
    | .receiving kind =>
      some ({ state with task := state.task.markPipeAsComplete currStack }.answered kind answer)
    | _ => none
  | .updateTaskTimes => some { state with task := state.task.updateTaskTimes cycleTics }
  | .leave =>
    if state.pc = .delayed ∧ state.task.state = .taskContinue then
      some { state with pc := .receiving .polling, task := state.task.setState .taskRunning }
    else none

end QueueGet

def queueGet (config : Config) (minorFrameMs : Nat) (timeout : Int) (task : TaskIPC) :
    Machine QueueGet QueueGetEvent where
  initial := .enter false minorFrameMs timeout task
  step := QueueGet.step config.cycleTics

def delayReleases : Machine.Monitor QueueGet QueueGetEvent Nat where
  start := 0
  record := fun releases state event =>
    if event = .updateTaskTimes ∧ state.pc = .delayed ∧ state.task.state = .taskDelay then releases + 1
    else releases

end TrickCFS
