import TrickCFS.Threads

/-! The permissions of perfect mode, as a monitor records them: what the
scheduler grants and acknowledges, when a task leaves its MSG_RCV wait, and the
order of marks and grants within the current frame. -/

namespace TrickCFS

structure SchedulerLedger where
  /-- Writes of TASK_CONTINUE over MSG_RCV by `signalMainAppComplete`. -/
  granted : Nat → Nat := fun _ => 0
  /-- Writes of TASK_CONTINUE over TASK_COMPLETE by `signalMainAppComplete`. -/
  acknowledged : Nat → Nat := fun _ => 0
  /-- The tasks marked in the current frame, in order. -/
  marks : List Nat := []
  /-- The tasks granted permission in the current frame, in order. -/
  grants : List Nat := []

structure Ledger extends SchedulerLedger where
  /-- Exits of the wait of `acknowledgePipeTrigger`. -/
  left : Nat → Nat := fun _ => 0

namespace Ledger

def increment (taskId : Nat) (counts : Nat → Nat) : Nat → Nat :=
  Function.update counts taskId (counts taskId + 1)

@[simp] theorem increment_self (taskId : Nat) (counts : Nat → Nat) :
    increment taskId counts taskId = counts taskId + 1 := Function.update_self ..

theorem increment_other {taskId other : Nat} (counts : Nat → Nat) (different : other ≠ taskId) :
    increment taskId counts other = counts other := Function.update_of_ne different ..

def grant (taskId : Nat) (ledger : Ledger) : Ledger :=
  { ledger with
    granted := increment taskId ledger.granted
    grants := ledger.grants ++ [taskId] }

def acknowledge (taskId : Nat) (ledger : Ledger) : Ledger :=
  { ledger with acknowledged := increment taskId ledger.acknowledged }

def mark (taskId : Nat) (ledger : Ledger) : Ledger :=
  { ledger with marks := ledger.marks ++ [taskId] }

def newFrame (ledger : Ledger) : Ledger := { ledger with marks := [], grants := [] }

def leave (taskId : Nat) (ledger : Ledger) : Ledger :=
  { ledger with left := increment taskId ledger.left }

def poll (taskId reqTriggers numTriggers numCompletes : Nat) (state : Threads) (ledger : Ledger) :
    Ledger :=
  if numCompletes = reqTriggers then ledger
  else
    match (state.task taskId).state with
    | .msgRcv => if numTriggers ≠ reqTriggers then ledger.grant taskId else ledger
    | .taskComplete => ledger.acknowledge taskId
    | _ => ledger

def record (ledger : Ledger) (state : Threads) : ThreadEvent → Ledger
  | .scheduler =>
    match state.scheduler with
    | .waiting => ledger.newFrame
    | .marking taskId _ =>
      if (state.es.locateAppRecord taskId).running then ledger.mark taskId else ledger
    | .polling taskId _ reqTriggers numTriggers numCompletes =>
      ledger.poll taskId reqTriggers numTriggers numCompletes state
    | _ => ledger
  | .leave taskId =>
    if state.tasks taskId = .awaitingPermission then ledger.leave taskId else ledger
  | _ => ledger

end Ledger

def frameLedger : Machine.Monitor Threads ThreadEvent Ledger where
  start := {}
  record := Ledger.record

end TrickCFS
