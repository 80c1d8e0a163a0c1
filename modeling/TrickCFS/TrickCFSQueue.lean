import Mathlib.Data.List.Basic

/-! `TrickCFSQueue`: the OSAL message queue of the simulation. `send` and
`receive` are split where the source takes `cvMutex`: the entry checks run
without it. Sizes are natural numbers; `calloc` keeps them far from wrapping. -/

namespace TrickCFS

/-- The error codes that the queue returns, all of them negative in OSAL. -/
inductive OsError
  | error
  | queueIdError
  | queueInvalidSize
  | queueTimeout
  | queueFull
  deriving DecidableEq, Repr

structure Message where
  data : List UInt8
  size : Nat
  hasData : Bool
  deriving DecidableEq

structure TrickCFSQueue where
  maxMsgs : Nat := 0
  maxSize : Nat := 0
  myId : Int := -1
  isEnabled : Bool := false
  /-- `none` is the null pointer. -/
  messages : Option (List Message) := none
  ringBufferIdx : Nat := 0
  numMessages : Nat := 0
  deriving DecidableEq

/-- What a call on the queue does. `undefined` is a null, out-of-range or
overrunning access; `waits` is a receive that stays in its condition wait. -/
inductive QueueOutcome
  | opened (id : Int)
  | closed (ret : Int)
  | sent (result : Except OsError Unit)
  | received (result : Except OsError (List UInt8))
  | waits
  | undefined

namespace TrickCFSQueue

def openQueue (depthIn maxSizeIn : Nat) (queue : TrickCFSQueue) : QueueOutcome × TrickCFSQueue :=
  if queue.isEnabled then (.opened queue.myId, queue)
  else
    (.opened queue.myId,
      { queue with
        isEnabled := true
        messages := some (List.replicate depthIn ⟨List.replicate maxSizeIn 0, 0, false⟩)
        maxMsgs := depthIn
        maxSize := maxSizeIn
        ringBufferIdx := 0
        numMessages := 0 })

def close (queue : TrickCFSQueue) : QueueOutcome × TrickCFSQueue :=
  if queue.isEnabled then (.closed 0, { queue with messages := none, isEnabled := false })
  else (.closed (-1), queue)

def messageAt (queue : TrickCFSQueue) (idx : Nat) : Option Message :=
  queue.messages.bind (fun ring => ring[idx]?)

def storeAt (queue : TrickCFSQueue) (idx : Nat) (message : Message) : Option (List Message) :=
  queue.messages.map (fun ring => ring.set idx message)

/-- The checks of `send` before it takes the mutex. -/
def sendCheck (queue : TrickCFSQueue) (msgLen : Nat) : Option OsError :=
  if queue.isEnabled then
    if msgLen ≤ queue.maxSize then none else some .error
  else some .error

def sendBody (msg : List UInt8) (queue : TrickCFSQueue) : QueueOutcome × TrickCFSQueue :=
  if queue.numMessages + 1 ≤ queue.maxMsgs then
    let testIdx := queue.ringBufferIdx + queue.numMessages
    let testIdx := if testIdx ≥ queue.maxMsgs then testIdx - queue.maxMsgs else testIdx
    match queue.messageAt testIdx with
    | some nextMsg =>
      if msg.length ≤ nextMsg.data.length then
        (.sent (.ok ()),
          { queue with
            numMessages := queue.numMessages + 1
            messages := queue.storeAt testIdx
              { data := msg ++ nextMsg.data.drop msg.length, size := msg.length, hasData := true } })
      else (.undefined, queue)
    | none => (.undefined, queue)
  else (.sent (.error .queueFull), queue)

def send (msg : List UInt8) (queue : TrickCFSQueue) : QueueOutcome × TrickCFSQueue :=
  match queue.sendCheck msg.length with
  | some code => (.sent (.error code), queue)
  | none => queue.sendBody msg

/-- The checks of `receive` before it takes the mutex. -/
def receiveCheck (queue : TrickCFSQueue) (buffSize : Nat) : Option OsError :=
  if queue.isEnabled then
    if buffSize ≥ queue.maxSize then none else some .queueInvalidSize
  else some .queueIdError

/-- `receive` under the mutex, once `numMessages` is not zero. The slot without
data is the source's improper queue state. -/
def receiveBody (buffSize : Nat) (queue : TrickCFSQueue) : QueueOutcome × TrickCFSQueue :=
  match queue.messageAt queue.ringBufferIdx with
  | some nextMsg =>
    if nextMsg.hasData then
      if nextMsg.size ≤ buffSize then
        let ringBufferIdx := queue.ringBufferIdx + 1
        (.received (.ok (nextMsg.data.take nextMsg.size)),
          { queue with
            messages := queue.storeAt queue.ringBufferIdx { nextMsg with hasData := false }
            numMessages := queue.numMessages - 1
            ringBufferIdx := if ringBufferIdx ≥ queue.maxMsgs then 0 else ringBufferIdx })
      else (.undefined, queue)
    else
      (.received (.error .error),
        { queue with
          ringBufferIdx := if queue.ringBufferIdx ≥ queue.maxMsgs then 0 else queue.ringBufferIdx })
  | none => (.undefined, queue)

/-- `timed` is whether a `timespec` is given; with none, an empty queue blocks. -/
def receive (buffSize : Nat) (timed : Bool) (queue : TrickCFSQueue) : QueueOutcome × TrickCFSQueue :=
  match queue.receiveCheck buffSize with
  | some code => (.received (.error code), queue)
  | none =>
    if queue.numMessages = 0 then
      if timed then (.received (.error .queueTimeout), queue) else (.waits, queue)
    else queue.receiveBody buffSize

def getNumMessages (queue : TrickCFSQueue) : Nat := if queue.isEnabled then queue.numMessages else 0

def getMaxMessages (queue : TrickCFSQueue) : Nat := if queue.isEnabled then queue.maxMsgs else 0

/-- The state in which `receive` reports an improper queue. -/
def improper (queue : TrickCFSQueue) : Bool :=
  queue.isEnabled && queue.numMessages != 0 &&
    (queue.messageAt queue.ringBufferIdx).all (fun nextMsg => !nextMsg.hasData)

end TrickCFSQueue

inductive QueueCall
  | openQueue (depthIn maxSizeIn : Nat)
  | close
  | send (msg : List UInt8)
  | receive (buffSize : Nat) (timed : Bool)

def TrickCFSQueue.call (queue : TrickCFSQueue) : QueueCall → QueueOutcome × TrickCFSQueue
  | .openQueue depthIn maxSizeIn => queue.openQueue depthIn maxSizeIn
  | .close => queue.close
  | .send msg => queue.send msg
  | .receive buffSize timed => queue.receive buffSize timed

end TrickCFS
