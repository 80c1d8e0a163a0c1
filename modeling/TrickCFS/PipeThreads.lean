import TrickCFS.Threads

/-! The threads with the pipes of the software bus between them. The scheduler
marks the owner of a pipe and then transmits a copy into the pipe's queue; a task
takes a message out inside `OS_QueueGet_Impl` and acknowledges the one that it has
taken out. The queues stay open. -/

namespace TrickCFS

structure PipeThreads where
  threads : Threads
  /-- Copies of scheduled messages that are not transmitted yet, with their pipes. -/
  inFlight : List (Nat × Nat)
  /-- The message IDs in all queues, each queue in the order of its entries. -/
  queued : List (Nat × Nat)
  /-- The pipe of a task's last `OS_QueueGet_Impl`. -/
  receivingOn : Nat → Nat
  /-- The message that a task has taken out and not acknowledged yet. -/
  dequeued : Nat → Option Nat

/-- `put` is the scheduler's transmission of its next copy, and `post` that of a
message by anybody else. -/
inductive PipeThreadEvent
  | thread (event : ThreadEvent)
  | put
  | post (pipeId mid : Nat)
  | dequeue (taskId : Nat)
  deriving DecidableEq

namespace PipeThreads

/-- Whether the pipes let the threads take the step. A pass over the schedule
ends behind its last transmission, and a receive without a message ends on an
empty queue. -/
def allows (state : PipeThreads) : ThreadEvent → Bool
  | .scheduler => decide (state.threads.scheduler ≠ .processing) || state.inFlight.isEmpty
  | .acknowledge taskId mid _ => state.dequeued taskId == some mid
  | .noMessage taskId =>
    (state.dequeued taskId).isNone && state.queued.all (fun copy => copy.1 != state.receivingOn taskId)
  | _ => true

def follow (event : ThreadEvent) (state : PipeThreads) : PipeThreads :=
  match event with
  | .send pipeId mid => { state with inFlight := state.inFlight ++ [(pipeId, mid)] }
  | .receive taskId pipeId => { state with receivingOn := Function.update state.receivingOn taskId pipeId }
  | .acknowledge taskId _ _ => { state with dequeued := Function.update state.dequeued taskId none }
  | _ => state

variable (config : Config) (depth : Nat → Nat)

def length (state : PipeThreads) (pipeId : Nat) : Nat := state.queued.countP (fun copy => copy.1 = pipeId)

/-- A full queue drops the message. -/
def enqueue (copy : Nat × Nat) (state : PipeThreads) : PipeThreads :=
  if state.length copy.1 < depth copy.1 then { state with queued := state.queued ++ [copy] } else state

def put (state : PipeThreads) : Option PipeThreads :=
  match state.inFlight with
  | [] => none
  | copy :: rest =>
    if state.threads.scheduler = .processing then some ({ state with inFlight := rest }.enqueue depth copy)
    else none

def dequeue (taskId : Nat) (state : PipeThreads) : Option PipeThreads :=
  if taskId < config.maxTasks ∧ state.threads.tasks taskId = .receiving ∧ state.dequeued taskId = none then
    match state.queued.find? (fun copy => copy.1 = state.receivingOn taskId) with
    | some copy =>
      some { state with
        queued := state.queued.eraseP (fun copy => copy.1 = state.receivingOn taskId)
        dequeued := Function.update state.dequeued taskId (some copy.2) }
    | none => none
  else none

def step (state : PipeThreads) : PipeThreadEvent → Option PipeThreads
  | .thread event =>
    if state.allows event then
      (state.threads.step config event).map (fun threads => { state.follow event with threads })
    else none
  | .put => state.put depth
  | .post pipeId mid => some (state.enqueue depth (pipeId, mid))
  | .dequeue taskId => state.dequeue config taskId

end PipeThreads

def pipeThreads (config : Config) (depth : Nat → Nat) (registeredTasks : Nat)
    (taskTable priority : Nat → Nat) : Machine PipeThreads PipeThreadEvent where
  initial :=
    { threads := (threads config registeredTasks taskTable priority).initial
      inFlight := []
      queued := []
      receivingOn := fun _ => 0
      dequeued := fun _ => none }
  step := PipeThreads.step config depth

/-- How a mission uses its pipes: the task that receives on each pipe, the messages
that only the scheduler sends, and the call site from which each task receives. -/
structure PipeUse where
  owner : Nat → Nat
  scheduled : Nat → Bool
  callSite : Nat → StackInfo

namespace PipeUse
variable (use : PipeUse)

/-- A step that keeps to the use. The scheduler sends to pipes that their owners
have claimed, and its copies find room in the queues. -/
def Orderly (depth : Nat → Nat) (state : PipeThreads) : PipeThreadEvent → Prop
  | .thread (.createQueue taskId pipeId) | .thread (.receive taskId pipeId) => use.owner pipeId = taskId
  | .thread (.send pipeId mid) =>
    use.scheduled mid = true ∧ state.threads.iface.prevPipeTaskOwner pipeId = use.owner pipeId
  | .thread (.complete taskId stack) | .thread (.acknowledge taskId _ stack) =>
    (use.callSite taskId).SameCallSite stack
  | .put => ∀ copy ∈ state.inFlight.head?, state.length copy.1 < depth copy.1
  | .post _ mid => use.scheduled mid = false
  | _ => True

instance (depth : Nat → Nat) (state : PipeThreads) (event : PipeThreadEvent) :
    Decidable (use.Orderly depth state event) := by
  unfold Orderly
  split <;> infer_instance

end PipeUse

def Threads.HeldUp (state : Threads) (taskId : Nat) : Prop :=
  (state.tasks taskId = .delayed ∨ state.tasks taskId = .awaitingPermission ∨
    state.tasks taskId = .awaitingAcknowledgement) ∧ (state.task taskId).state ≠ .taskContinue

end TrickCFS
