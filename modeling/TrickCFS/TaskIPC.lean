import Mathlib.Data.List.Basic

/-! The per-task record of `TrickCFSInterface` and the parts of its methods that
run under the record's `cvMutex`. Each function here is one critical section:
the wait loops between two of them belong to the interleaving model. -/

namespace TrickCFS

inductive TaskState
  | none
  | taskDelay
  | msgRcv
  | taskRunning
  | taskComplete
  | taskContinue
  deriving DecidableEq, Repr

def sizeTrace : Nat := 10

/-- A cached backtrace. `backtrace` keeps the innermost `SIZE_TRACE` frames. -/
structure StackInfo where
  cacheBackTrace : List Nat
  bounded : cacheBackTrace.length ≤ sizeTrace
  deriving DecidableEq

namespace StackInfo

def backtrace (frames : List Nat) : StackInfo :=
  ⟨frames.take sizeTrace, by simp only [List.length_take]; omega⟩

def cacheBackTraceSize (stack : StackInfo) : Nat := stack.cacheBackTrace.length

/-- The comparison loop of `markPipeAsComplete`. It skips the three frames
inside the interface itself, so it compares the receive call sites. -/
def foundEntry (currStack stack : StackInfo) : Bool :=
  currStack.cacheBackTraceSize == stack.cacheBackTraceSize &&
    currStack.cacheBackTrace.drop 3 == stack.cacheBackTrace.drop 3

def SameCallSite (first second : StackInfo) : Prop := first.foundEntry second = true

instance (first second : StackInfo) : Decidable (SameCallSite first second) :=
  inferInstanceAs (Decidable (_ = true))

@[simp] theorem foundEntry_self (stack : StackInfo) : stack.foundEntry stack = true := by
  simp [foundEntry]

end StackInfo

structure TaskIPC where
  triggeredMIDs : List Nat := []
  stackList : List StackInfo := []
  acknowledgedMIDs : List Nat := []
  usRemaining : Int := -1
  taskId : Nat
  state : TaskState := .none

namespace TaskIPC

/-- `markPipeAsTriggered`, once the owning app is known to be RUNNING. -/
def markPipeAsTriggered (mid : Nat) (task : TaskIPC) : TaskIPC :=
  { task with triggeredMIDs := task.triggeredMIDs ++ [mid] }

/-- `acknowledgePipeTrigger` up to its wait for permission, which exists in
perfect mode only. -/
def acknowledgePipeTrigger (perfectScheduleMode : Bool) (mid : Nat) (newStack : StackInfo)
    (task : TaskIPC) : TaskIPC :=
  if mid ∈ task.triggeredMIDs then
    { task with
      stackList := task.stackList ++ [newStack]
      acknowledgedMIDs := task.acknowledgedMIDs ++ [mid]
      state := if perfectScheduleMode then .msgRcv else .taskRunning }
  else
    { task with state := .taskRunning }

/-- The find and erase at the head of `markPipeAsComplete`. The source calls
`acknowledgedMIDs.back()` without testing for an empty list; an empty list is
read here as matching no triggered MID. -/
def eraseTriggered (task : TaskIPC) : TaskIPC :=
  match task.acknowledgedMIDs.getLast? with
  | some mid =>
    if mid ∈ task.triggeredMIDs then
      { task with
        triggeredMIDs := task.triggeredMIDs.erase mid
        acknowledgedMIDs := task.acknowledgedMIDs.dropLast }
    else task
  | Option.none => task

def eraseStack (currStack : StackInfo) (task : TaskIPC) : TaskIPC :=
  { task with stackList := task.stackList.eraseP currStack.foundEntry }

/-- `markPipeAsComplete` up to its wait for the scheduler's acknowledgement,
which exists in perfect mode only. -/
def markPipeAsComplete (currStack : StackInfo) (task : TaskIPC) : TaskIPC :=
  if task.stackList.length > 0 then
    let prevSize := task.stackList.length
    let task := (task.eraseTriggered).eraseStack currStack
    if task.stackList.length ≠ prevSize then
      { task with state := .taskComplete }
    else
      { task with state := .taskRunning }
  else
    { task with state := .taskRunning }

/-- The entry of `triggeredMIDs` that `markPipeAsComplete` erases, if any. -/
def retiredMID (task : TaskIPC) : Option Nat :=
  if task.stackList.isEmpty then Option.none
  else task.acknowledgedMIDs.getLast?.filter (fun mid => mid ∈ task.triggeredMIDs)

/-- Whether `markPipeAsComplete` takes its call-site branch. -/
def completesStack (currStack : StackInfo) (task : TaskIPC) : Bool :=
  task.stackList.any currStack.foundEntry

/-- `addTaskDelay` in its delaying branch. The millisecond argument is stored
as it is in the field that `updateTaskTimes` counts down in tics. -/
def addTaskDelay (msIn : Nat) (task : TaskIPC) : TaskIPC :=
  { task with state := .taskDelay, usRemaining := msIn }

def updateTaskTimes (cycleTics : Int) (task : TaskIPC) : TaskIPC :=
  if task.state = .taskDelay then
    if task.usRemaining - cycleTics ≤ 0 then
      { task with usRemaining := -1, state := .taskContinue }
    else
      { task with usRemaining := task.usRemaining - cycleTics }
  else task

/-- The end-of-wait timeout of `TrickWaitForCFSComplete`. -/
def clearTriggered (task : TaskIPC) : TaskIPC := { task with triggeredMIDs := [] }

def setState (state : TaskState) (task : TaskIPC) : TaskIPC := { task with state }

/-- What `TrickWaitForCFSComplete` waits for on a task that is not delayed. -/
def Outstanding (task : TaskIPC) : Prop :=
  task.state ≠ .taskDelay ∧ ¬ (task.triggeredMIDs.length = 0 ∧ task.stackList.length = 0)

instance (task : TaskIPC) : Decidable task.Outstanding := inferInstanceAs (Decidable (_ ∧ _))

def Idle (task : TaskIPC) : Prop := task.triggeredMIDs = [] ∧ task.stackList = []

end TaskIPC
end TrickCFS
