import TrickCFS.Library.Machine
import TrickCFS.BaseTrickCFSScheduler

/-! The pipes of the software bus with the tasks that create and receive on
them. A trigger is recorded on the task that `prevPipeTaskOwner` names when the
scheduler marks the pipe; the message is dequeued later, by whichever task
receives it. Each message carries the task it was recorded on as a ghost. The
wait loops of perfect mode only delay a task, and are left out. -/

namespace TrickCFS

structure ScheduledMessage where
  mid : Nat
  recordedOn : Nat
  deriving DecidableEq

/-- A task in `OS_QueueGet_Impl`: before the critical section of
`markPipeAsComplete`, in the queue's receive, or before the critical section of
`acknowledgePipeTrigger` with the message it has dequeued. -/
inductive ReceivePc
  | running
  | completing (pipeId : Nat)
  | receiving (pipeId : Nat)
  | acknowledging (message : ScheduledMessage)
  deriving DecidableEq

def ReceivePc.holding (mid : Nat) : ReceivePc → Nat
  | .acknowledging message => if message.mid = mid then 1 else 0
  | _ => 0

structure Pipes where
  iface : TrickCFSInterface
  /-- The scheduler inside `markPipeAsTriggered`, with the owner it looked up. -/
  marking : Option (Nat × ScheduledMessage)
  /-- Copies that are marked and not yet transmitted, with their pipes. -/
  inFlight : List (Nat × ScheduledMessage)
  /-- The contents of all queues, each queue in the order of its entries. -/
  queued : List (Nat × ScheduledMessage)
  tasks : Nat → ReceivePc

inductive PipeEvent
  | createQueue (taskId pipeId : Nat)
  | lookUp (pipeId mid : Nat)
  | mark
  | put
  | receive (taskId pipeId : Nat)
  | complete (taskId : Nat) (currStack : StackInfo)
  | dequeue (taskId : Nat)
  | noMessage (taskId : Nat)
  | acknowledge (taskId : Nat) (newStack : StackInfo)
  deriving DecidableEq

namespace Pipes

def owner (state : Pipes) (pipeId : Nat) : Nat := state.iface.prevPipeTaskOwner pipeId

def task (state : Pipes) (taskId : Nat) : TaskIPC := state.iface.taskStates taskId

/-- `SCH_TRICK_initialize_pipe`, and the head of `markPipeAsComplete`. -/
def claim (pipeId taskId : Nat) (state : Pipes) : Pipes :=
  { state with iface := state.iface.setPipeOwner pipeId taskId }

def setTask (taskId : Nat) (change : TaskIPC → TaskIPC) (state : Pipes) : Pipes :=
  { state with iface := state.iface.updateTask taskId change }

def setPc (taskId : Nat) (pc : ReceivePc) (state : Pipes) : Pipes :=
  { state with tasks := Function.update state.tasks taskId pc }

@[simp] theorem setPc_tasks_same (taskId : Nat) (pc : ReceivePc) (state : Pipes) :
    (state.setPc taskId pc).tasks taskId = pc := Function.update_self ..

theorem setPc_tasks_other {taskId other : Nat} (pc : ReceivePc) (state : Pipes) (different : other ≠ taskId) :
    (state.setPc taskId pc).tasks other = state.tasks other := Function.update_of_ne different ..

variable (perfectScheduleMode : Bool) (es : EsGlobal) (depth : Nat → Nat)

/-- `markPipeAsTriggered` reads the owner under the shared-data lock and marks
it under the owner's mutex. -/
def lookUp (pipeId mid : Nat) (state : Pipes) : Option Pipes :=
  match state.marking with
  | none => some { state with marking := some (pipeId, ⟨mid, state.owner pipeId⟩) }
  | some _ => none

def mark (state : Pipes) : Option Pipes :=
  match state.marking with
  | some entry =>
    some { state with
      iface := state.iface.markTask perfectScheduleMode (es.locateAppRecord entry.2.recordedOn)
        entry.2.recordedOn entry.2.mid
      marking := none
      inFlight := state.inFlight ++ [entry] }
  | none => none

def length (state : Pipes) (pipeId : Nat) : Nat := state.queued.countP (fun entry => entry.1 = pipeId)

/-- The transmission of the next copy. A full queue drops it. -/
def put (state : Pipes) : Option Pipes :=
  match state.inFlight with
  | [] => none
  | entry :: rest =>
    if state.length entry.1 < depth entry.1 then
      some { state with inFlight := rest, queued := state.queued ++ [entry] }
    else some { state with inFlight := rest }

def dequeue (taskId pipeId : Nat) (state : Pipes) : Option Pipes :=
  match state.queued.find? (fun entry => entry.1 = pipeId) with
  | some entry =>
    some ({ state with queued := state.queued.eraseP (fun entry => entry.1 = pipeId) }.setPc taskId
      (.acknowledging entry.2))
  | none => none

def step (state : Pipes) : PipeEvent → Option Pipes
  | .createQueue taskId pipeId =>
    if state.tasks taskId = .running then some (state.claim pipeId taskId) else none
  | .lookUp pipeId mid => state.lookUp pipeId mid
  | .mark => state.mark perfectScheduleMode es
  | .put => state.put depth
  | .receive taskId pipeId =>
    if state.tasks taskId = .running then
      some ((state.claim pipeId taskId).setPc taskId (.completing pipeId))
    else none
  | .complete taskId currStack =>
    match state.tasks taskId with
    | .completing pipeId =>
      some ((state.setTask taskId (TaskIPC.markPipeAsComplete currStack)).setPc taskId
        (.receiving pipeId))
    | _ => none
  | .dequeue taskId =>
    match state.tasks taskId with
    | .receiving pipeId => state.dequeue taskId pipeId
    | _ => none
  | .noMessage taskId =>
    match state.tasks taskId with
    | .receiving _ => some (state.setPc taskId .running)
    | _ => none
  | .acknowledge taskId newStack =>
    match state.tasks taskId with
    | .acknowledging message =>
      some ((state.setTask taskId
        (TaskIPC.acknowledgePipeTrigger perfectScheduleMode message.mid newStack)).setPc taskId .running)
    | _ => none

end Pipes

def pipes (perfectScheduleMode : Bool) (es : EsGlobal) (depth : Nat → Nat) : Machine Pipes PipeEvent where
  initial := { iface := {}, marking := none, inFlight := [], queued := [], tasks := fun _ => .running }
  step := Pipes.step perfectScheduleMode es depth

end TrickCFS
