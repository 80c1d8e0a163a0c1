import Mathlib.Logic.Function.Basic
import TrickCFS.Library.Machine
import TrickCFS.TrickCFSQueue

/-! One queue shared by any number of threads. A call takes two steps: its entry
checks, which read the queue without the mutex, and its body under the mutex. A
receive that finds no message waits on the condition and runs its body again
when it resumes. An open is one step for the checks too, though its body sets
`isEnabled` nine lines before `maxSize`. -/

namespace TrickCFS

inductive QueueThread
  | idle
  | sending (msg : List UInt8)
  | receiving (buffSize : Nat) (timed : Bool)
  | waiting (buffSize : Nat) (timed : Bool)
  | woken (buffSize : Nat) (timed : Bool)
  deriving DecidableEq

def QueueThread.receiver : QueueThread → Option (Nat × Bool)
  | .receiving buffSize timed | .woken buffSize timed => some (buffSize, timed)
  | .idle | .sending _ | .waiting _ _ => none

def QueueThread.isWaiting : QueueThread → Bool
  | .waiting _ _ => true
  | _ => false

def QueueThread.isWoken : QueueThread → Bool
  | .woken _ _ => true
  | _ => false

structure QueueThreads where
  queue : TrickCFSQueue
  threads : Nat → QueueThread
  /-- The threads blocked on `cv`. -/
  waiters : List Nat

inductive QueueEvent
  | openQueue (depthIn maxSizeIn : Nat)
  | close
  | send (thread : Nat) (msg : List UInt8)
  | sendLocked (thread : Nat) (signalled : Option Nat)
  | receive (thread : Nat) (buffSize : Nat) (timed : Bool)
  | receiveLocked (thread : Nat)
  | timeout (thread : Nat)
  | spurious (thread : Nat)

namespace QueueThreads

def setThread (thread : Nat) (control : QueueThread) (state : QueueThreads) : QueueThreads :=
  { state with threads := Function.update state.threads thread control }

def wake (thread : Nat) (state : QueueThreads) : Option QueueThreads :=
  match state.threads thread with
  | .waiting buffSize timed =>
    some { state.setThread thread (.woken buffSize timed) with waiters := state.waiters.erase thread }
  | _ => none

/-- `pthread_cond_signal` wakes one of the waiters, if there is one. -/
def signal (signalled : Option Nat) (state : QueueThreads) : Option QueueThreads :=
  match signalled with
  | none => if state.waiters.isEmpty then some state else none
  | some thread => if thread ∈ state.waiters then state.wake thread else none

def sendLocked (thread : Nat) (msg : List UInt8) (signalled : Option Nat) (state : QueueThreads) :
    Option QueueThreads :=
  let answered := state.queue.sendBody msg
  let next := { state.setThread thread .idle with queue := answered.2 }
  match answered.1 with
  | .sent (.ok ()) => next.signal signalled
  | _ => some next

def receiveLocked (thread : Nat) (buffSize : Nat) (timed : Bool) (state : QueueThreads) : QueueThreads :=
  if state.queue.numMessages = 0 then
    { state.setThread thread (.waiting buffSize timed) with waiters := state.waiters ++ [thread] }
  else
    { state.setThread thread .idle with queue := (state.queue.receiveBody buffSize).2 }

def step (state : QueueThreads) : QueueEvent → Option QueueThreads
  | .openQueue depthIn maxSizeIn =>
    some { state with queue := (state.queue.openQueue depthIn maxSizeIn).2 }
  | .close => some { state with queue := state.queue.close.2 }
  | .send thread msg =>
    if state.threads thread = .idle then
      match state.queue.sendCheck msg.length with
      | some _ => some state
      | none => some (state.setThread thread (.sending msg))
    else none
  | .sendLocked thread signalled =>
    match state.threads thread with
    | .sending msg => state.sendLocked thread msg signalled
    | _ => none
  | .receive thread buffSize timed =>
    if state.threads thread = .idle then
      match state.queue.receiveCheck buffSize with
      | some _ => some state
      | none => some (state.setThread thread (.receiving buffSize timed))
    else none
  | .receiveLocked thread =>
    match (state.threads thread).receiver with
    | some (buffSize, timed) => some (state.receiveLocked thread buffSize timed)
    | none => none
  | .timeout thread =>
    match state.threads thread with
    | .waiting _ true =>
      some { state.setThread thread .idle with waiters := state.waiters.erase thread }
    | _ => none
  | .spurious thread => state.wake thread

end QueueThreads

def queueThreads (myId : Int) : Machine QueueThreads QueueEvent where
  initial := { queue := { myId }, threads := fun _ => .idle, waiters := [] }
  step := QueueThreads.step

/-- What the queue accepted and what receives returned, in order. A returned
message is recorded with the thread that received it. -/
structure Deliveries where
  accepted : List (List UInt8) := []
  returned : List (Nat × List UInt8) := []

namespace QueueThreads

def accepts (state : QueueThreads) : QueueEvent → List (List UInt8)
  | .sendLocked thread _ =>
    match state.threads thread with
    | .sending msg =>
      match (state.queue.sendBody msg).1 with
      | .sent (.ok ()) => [msg]
      | _ => []
    | _ => []
  | _ => []

def returns (state : QueueThreads) : QueueEvent → List (Nat × List UInt8)
  | .receiveLocked thread =>
    match (state.threads thread).receiver with
    | some (buffSize, _) =>
      if state.queue.numMessages = 0 then []
      else
        match (state.queue.receiveBody buffSize).1 with
        | .received (.ok data) => [(thread, data)]
        | _ => []
    | none => []
  | _ => []

end QueueThreads

def deliveries : Machine.Monitor QueueThreads QueueEvent Deliveries where
  start := {}
  record := fun history state event =>
    { accepted := history.accepted ++ state.accepts event
      returned := history.returned ++ state.returns event }

end TrickCFS
