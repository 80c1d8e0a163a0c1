import Mathlib.Algebra.Order.Floor.Ring
import Mathlib.Data.Rat.Floor
import Mathlib.Logic.Function.Basic
import TrickCFS.TaskIPC

/-! The data that `TrickCFSInterface` shares between the Trick main thread, the
scheduler task and the app tasks, and the cFE and Trick values that it reads. -/

namespace TrickCFS

/-- What is read of a `CFE_ES_AppRecord_t`: whether `AppState` is RUNNING, and
the priority of the app's main task. -/
structure AppRecord where
  running : Bool
  priority : Nat
  deriving DecidableEq

structure EsGlobal where
  registeredTasks : Nat
  /-- `TaskTable[taskId].AppId`. -/
  taskTable : Nat → Nat
  appTable : Nat → AppRecord

def EsGlobal.locateAppRecord (es : EsGlobal) (taskId : Nat) : AppRecord :=
  es.appTable (es.taskTable taskId)

/-- The settings of a run. The job cycle is in seconds, the time-tic value in
tics per second. -/
structure Config where
  perfectScheduleMode : Bool
  msWaitTimeForCFSApps : Int
  maxTasks : Nat
  jobCycle : ℚ
  jobCycle_pos : 0 < jobCycle
  timeTicValue : Nat

/-- `updateTaskTimes` truncates the tics of one cycle to a whole number. -/
def Config.cycleTics (config : Config) : Int := ⌊config.jobCycle * config.timeTicValue⌋

def oneTaskConfig : Config where
  perfectScheduleMode := false
  msWaitTimeForCFSApps := -1
  maxTasks := 1
  jobCycle := 1
  jobCycle_pos := one_pos
  timeTicValue := 1000000

structure TrickCFSInterface where
  taskStates : Nat → TaskIPC := fun taskId => { taskId }
  prevPipeTaskOwner : Nat → Nat := fun _ => 0
  /-- The multimap from priorities to tasks, in iteration order. -/
  perfectFDMap : List (Nat × Nat) := []
  isMainCompleteTrigger : Nat := 0
  triggerMain : Nat := 0

namespace TrickCFSInterface

/-- `multimap::insert` places a new pair behind those with an equal key. -/
def insertFD (priority taskId : Nat) : List (Nat × Nat) → List (Nat × Nat)
  | [] => [(priority, taskId)]
  | entry :: rest =>
    if entry.1 ≤ priority then entry :: insertFD priority taskId rest
    else (priority, taskId) :: entry :: rest

def updateTask (taskId : Nat) (change : TaskIPC → TaskIPC) (iface : TrickCFSInterface) :
    TrickCFSInterface :=
  { iface with
    taskStates := Function.update iface.taskStates taskId (change (iface.taskStates taskId)) }

def setPipeOwner (pipeId taskId : Nat) (iface : TrickCFSInterface) : TrickCFSInterface :=
  { iface with prevPipeTaskOwner := Function.update iface.prevPipeTaskOwner pipeId taskId }

def markTask (perfectScheduleMode : Bool) (appRecord : AppRecord) (taskId mid : Nat)
    (iface : TrickCFSInterface) : TrickCFSInterface :=
  if appRecord.running then
    let marked := iface.updateTask taskId (TaskIPC.markPipeAsTriggered mid)
    if perfectScheduleMode then
      { marked with perfectFDMap := insertFD appRecord.priority taskId marked.perfectFDMap }
    else marked
  else iface

@[simp] theorem updateTask_same (taskId : Nat) (change : TaskIPC → TaskIPC) (iface : TrickCFSInterface) :
    (iface.updateTask taskId change).taskStates taskId = change (iface.taskStates taskId) :=
  Function.update_self ..

theorem updateTask_other {taskId other : Nat} (change : TaskIPC → TaskIPC) (iface : TrickCFSInterface)
    (different : other ≠ taskId) :
    (iface.updateTask taskId change).taskStates other = iface.taskStates other :=
  Function.update_of_ne different ..

section Mark
variable (perfectScheduleMode : Bool) {appRecord : AppRecord} {taskId other : Nat} (mid : Nat)
  (iface : TrickCFSInterface)

theorem markTask_same (running : appRecord.running = true) :
    (iface.markTask perfectScheduleMode appRecord taskId mid).taskStates taskId =
      (iface.taskStates taskId).markPipeAsTriggered mid := by
  simp only [markTask, running, ite_true]
  split <;> exact updateTask_same ..

theorem markTask_other (different : other ≠ taskId) :
    (iface.markTask perfectScheduleMode appRecord taskId mid).taskStates other = iface.taskStates other := by
  simp only [markTask]
  repeat' split
  all_goals first | rfl | exact updateTask_other _ _ different

theorem markTask_shared :
    let marked := iface.markTask perfectScheduleMode appRecord taskId mid
    marked.prevPipeTaskOwner = iface.prevPipeTaskOwner ∧
      marked.isMainCompleteTrigger = iface.isMainCompleteTrigger ∧ marked.triggerMain = iface.triggerMain := by
  simp only [markTask]
  repeat' split
  all_goals exact ⟨rfl, rfl, rfl⟩

@[simp] theorem markTask_owner :
    (iface.markTask perfectScheduleMode appRecord taskId mid).prevPipeTaskOwner =
      iface.prevPipeTaskOwner :=
  (markTask_shared perfectScheduleMode mid iface).1

theorem markTask_perfectFDMap (running : appRecord.running = true) :
    (iface.markTask true appRecord taskId mid).perfectFDMap =
      insertFD appRecord.priority taskId iface.perfectFDMap := by
  simp only [markTask, running, ite_true]
  rfl

end Mark

theorem mem_insertFD {priority taskId : Nat} {entries : List (Nat × Nat)} {entry : Nat × Nat} :
    entry ∈ insertFD priority taskId entries ↔ entry = (priority, taskId) ∨ entry ∈ entries := by
  induction entries with
  | nil => simp [insertFD]
  | cons first rest ih =>
    simp only [insertFD]
    split
    · simp only [List.mem_cons, ih]
      exact or_left_comm
    · simp only [List.mem_cons]

theorem insertFD_sorted {priority taskId : Nat} {entries : List (Nat × Nat)}
    (sorted : entries.Pairwise (fun first second => first.1 ≤ second.1)) :
    (insertFD priority taskId entries).Pairwise (fun first second => first.1 ≤ second.1) := by
  induction entries with
  | nil => simp [insertFD]
  | cons first rest ih =>
    obtain ⟨least, rest'⟩ := List.pairwise_cons.mp sorted
    simp only [insertFD]
    split
    next before =>
      refine List.pairwise_cons.mpr ⟨?_, ih rest'⟩
      intro entry member
      rcases mem_insertFD.mp member with rfl | old
      · exact before
      · exact least entry old
    next after =>
      refine List.pairwise_cons.mpr ⟨?_, sorted⟩
      intro entry member
      rcases List.mem_cons.mp member with rfl | old
      · exact Nat.le_of_not_le after
      · exact Nat.le_trans (Nat.le_of_not_le after) (least entry old)

end TrickCFSInterface
end TrickCFS
