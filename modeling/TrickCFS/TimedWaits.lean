import TrickCFS.Threads

/-! The machine with the wall-clock time of the timed waits. Time passes while the
main thread is blocked. A poll times out at its end and not before, and a signal
may come after any part of it. -/

namespace TrickCFS

/-- What the bound on a wait is counted from: the two lists of the task and
whether it is in a delay. -/
def TaskIPC.progress (task : TaskIPC) : List Nat × List StackInfo × Bool :=
  (task.triggeredMIDs, task.stackList, decide (task.state = .taskDelay))

def pollTime (remainingTime : Int) : Int := if remainingTime < 5000 then remainingTime else 5000

inductive TimedEvent
  | thread (event : ThreadEvent)
  | elapse (ms : Nat)
  deriving DecidableEq

structure TimedThreads where
  threads : Threads
  /-- The milliseconds since the current poll began. -/
  polled : Nat

namespace TimedThreads
variable (config : Config)

def due (state : TimedThreads) : ThreadEvent → Bool
  | .mainTimeout =>
    match state.threads.main with
    | .waiting _ remainingTime => decide (state.polled = pollTime remainingTime)
    | _ => false
  | _ => true

def step (state : TimedThreads) : TimedEvent → Option TimedThreads
  | .thread event =>
    if state.due event then
      (state.threads.step config event).map (fun next =>
        { threads := next, polled := if next.main = state.threads.main then state.polled else 0 })
    else none
  | .elapse ms =>
    match state.threads.main with
    | .waiting _ remainingTime =>
      if state.polled + ms ≤ pollTime remainingTime then some { state with polled := state.polled + ms }
      else none
    | _ => none

end TimedThreads

def timedThreads (config : Config) (registeredTasks : Nat) (taskTable priority : Nat → Nat) :
    Machine TimedThreads TimedEvent where
  initial := ⟨(threads config registeredTasks taskTable priority).initial, 0⟩
  step := TimedThreads.step config

/-- For each task, the milliseconds that the main thread has spent in timed waits
on it in the current frame since the task's last progress. The main thread reads
the completion event between two frames. -/
def waitedTimes (config : Config) : Machine.Monitor TimedThreads TimedEvent (Nat → Nat) where
  start := fun _ => 0
  record waited state
    | .thread event => fun taskId =>
      match state.threads.step config event with
      | some next =>
        if state.threads.main = .reading ∨ (next.task taskId).progress ≠ (state.threads.task taskId).progress then 0
        else waited taskId
      | none => waited taskId
    | .elapse ms =>
      match state.threads.main with
      | .waiting ii _ => Function.update waited ii (waited ii + ms)
      | _ => waited

end TrickCFS
