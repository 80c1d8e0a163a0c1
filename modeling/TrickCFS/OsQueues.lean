import TrickCFS.BoundedFifo
import TrickCFS.QueueGet

/-! The message queues of the OSAL: `OS_QueueCreate_Impl` and its siblings over
`TrickCFSQueueManager`. A token holds an index below `OS_MAX_QUEUES`. One `get` is
one receive of `OS_QueueGet_Impl` with the head of `markPipeAsComplete` before it. -/

namespace TrickCFS

structure TrickCFSQueueManager (maxQueues : Nat) where
  queues : Vector TrickCFSQueue maxQueues

namespace TrickCFSQueueManager
variable {maxQueues : Nat}

def new : TrickCFSQueueManager maxQueues := ⟨.ofFn (fun ii => { myId := (ii : Nat) })⟩

/-- A method of the queue at the index, or the answer to an index that is too large. -/
def onQueue (rejected : QueueOutcome) (idx : Nat) (call : QueueCall) (manager : TrickCFSQueueManager maxQueues) :
    QueueOutcome × TrickCFSQueueManager maxQueues :=
  if inside : idx < maxQueues then
    let answered := manager.queues[idx].call call
    (answered.1, ⟨manager.queues.set idx answered.2⟩)
  else (rejected, manager)

def openQueue (idx depthIn maxSizeIn : Nat) (manager : TrickCFSQueueManager maxQueues) :=
  manager.onQueue (.opened (-1)) idx (.openQueue depthIn maxSizeIn)

def close (idx : Nat) (manager : TrickCFSQueueManager maxQueues) := manager.onQueue (.closed (-1)) idx .close

/-- Minus one is `OS_ERROR`. -/
def receive (idx buffSize : Nat) (timed : Bool) (manager : TrickCFSQueueManager maxQueues) :=
  manager.onQueue (.received (.error .error)) idx (.receive buffSize timed)

/-- The source takes an `int` index here, which holds every index of a token. -/
def send (idx : Nat) (msg : List UInt8) (manager : TrickCFSQueueManager maxQueues) :=
  manager.onQueue (.sent (.error .error)) idx (.send msg)

/-- Minus one as a `size_t` for an index that is too large. -/
def getNumMessages (idx : Nat) (manager : TrickCFSQueueManager maxQueues) : Nat :=
  if inside : idx < maxQueues then manager.queues[idx].getNumMessages else 2 ^ 64 - 1

def getMaxMessages (idx : Nat) (manager : TrickCFSQueueManager maxQueues) : Nat :=
  if inside : idx < maxQueues then manager.queues[idx].getMaxMessages else 2 ^ 64 - 1

end TrickCFSQueueManager

inductive OsQueueCall
  | create (taskId maxDepth maxSize : Nat)
  | delete
  | get (taskId : Nat) (kind : ReceiveKind) (size : Nat)
  | put (data : List UInt8)

/-- `got` holds the bytes that are copied, as many as `size_copied` says. -/
inductive OsQueueAnswer
  | status (code : Option OsError)
  | got (code : QueueGetCode) (data : List UInt8)
  | waits
  | undefined

/-- The soft limit of `TruncateQueueDepth`; zero is no limit. -/
def truncatedDepth (truncateQueueDepth maxDepth : Nat) : Nat :=
  if truncateQueueDepth > 0 ∧ truncateQueueDepth < maxDepth then truncateQueueDepth else maxDepth

namespace OsQueueAnswer

/-- The return code of `OS_QueueGet_Impl` after a receive; a poll that times out
goes round its loop with the code of the timeout. -/
def ofReceive (kind : ReceiveKind) : QueueOutcome → OsQueueAnswer
  | .received (.ok data) => .got .success data
  | .received (.error code) =>
    .got (if kind = .check ∧ code = .queueTimeout then .queueEmpty else .failed code) []
  | .waits => .waits
  | _ => .undefined

def ofSend : QueueOutcome → OsQueueAnswer
  | .sent (.ok ()) => .status none
  | .sent (.error code) => .status (some code)
  | _ => .undefined

def ofClose : QueueOutcome → OsQueueAnswer
  | .closed ret => .status (if ret ≠ 0 then some .error else none)
  | _ => .undefined

end OsQueueAnswer

structure OsQueues (maxQueues : Nat) where
  manager : TrickCFSQueueManager maxQueues := .new
  /-- `OS_impl_queue_table[queue_id].id`, zero until a queue is created. -/
  implId : Fin maxQueues → Int := fun _ => 0
  prevPipeTaskOwner : Nat → Nat := fun _ => 0

namespace OsQueues
variable {maxQueues : Nat} (queueId : Fin maxQueues)

def setPipeOwner (taskId : Nat) (state : OsQueues maxQueues) : OsQueues maxQueues :=
  { state with prevPipeTaskOwner := Function.update state.prevPipeTaskOwner queueId taskId }

/-- The pipe is initialized also when the queue cannot be opened. -/
def create (truncateQueueDepth taskId maxDepth maxSize : Nat) (state : OsQueues maxQueues) :
    OsQueueAnswer × OsQueues maxQueues :=
  let opened := state.manager.openQueue queueId (truncatedDepth truncateQueueDepth maxDepth) maxSize
  match opened.1 with
  | .opened queueDesc =>
    if queueDesc = -1 then
      (.status (some .error), { state with manager := opened.2 }.setPipeOwner queueId taskId)
    else
      (.status none,
        { state with
          manager := opened.2
          implId := Function.update state.implId queueId queueDesc }.setPipeOwner queueId taskId)
  | _ => (.undefined, state)

/-- The descriptor that the table holds selects the queue to close. It is passed
as a `size_t`. -/
def delete (state : OsQueues maxQueues) : OsQueueAnswer × OsQueues maxQueues :=
  let closed := state.manager.close (state.implId queueId % 2 ^ 64).toNat
  (.ofClose closed.1, { state with manager := closed.2 })

def get (taskId : Nat) (kind : ReceiveKind) (size : Nat) (state : OsQueues maxQueues) :
    OsQueueAnswer × OsQueues maxQueues :=
  let claimed := state.setPipeOwner queueId taskId
  let received := claimed.manager.receive queueId size (kind ≠ .pend)
  (.ofReceive kind received.1, { claimed with manager := received.2 })

def put (data : List UInt8) (state : OsQueues maxQueues) : OsQueueAnswer × OsQueues maxQueues :=
  let sent := state.manager.send queueId data
  (.ofSend sent.1, { state with manager := sent.2 })

def call (truncateQueueDepth : Nat) (state : OsQueues maxQueues) (request : Fin maxQueues × OsQueueCall) :
    OsQueueAnswer × OsQueues maxQueues :=
  match request.2 with
  | .create taskId maxDepth maxSize => state.create request.1 truncateQueueDepth taskId maxDepth maxSize
  | .delete => state.delete request.1
  | .get taskId kind size => state.get request.1 taskId kind size
  | .put data => state.put request.1 data

end OsQueues

/-- What one OSAL queue is for: a bounded FIFO while it exists, and the pipe's
owner, the last task that created it or asked it for a message. -/
structure OsQueue where
  fifo : Option BoundedFifo := none
  owner : Nat := 0

namespace OsQueue

def call (truncateQueueDepth : Nat) (queue : OsQueue) : OsQueueCall → OsQueueAnswer × OsQueue
  | .create taskId maxDepth maxSize =>
    (.status none, ⟨some (queue.fifo.getD (.empty (truncatedDepth truncateQueueDepth maxDepth) maxSize)), taskId⟩)
  | .delete => (.status (if queue.fifo.isSome then none else some .error), { queue with fifo := none })
  | .get taskId kind size =>
    let received := BoundedFifo.receive size (kind ≠ .pend) queue.fifo
    (.ofReceive kind received.1, ⟨received.2, taskId⟩)
  | .put data =>
    let sent := BoundedFifo.send data queue.fifo
    (.ofSend sent.1, { queue with fifo := sent.2 })

def numMessages (queue : OsQueue) : Nat := queue.fifo.elim 0 (fun fifo => fifo.queued.length)

def maxMessages (queue : OsQueue) : Nat := queue.fifo.elim 0 BoundedFifo.depth

end OsQueue
end TrickCFS
