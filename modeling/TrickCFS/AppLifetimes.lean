import TrickCFS.Threads

/-! Apps that stop and tasks that come and go while the threads run. A task takes
one of the free indices and gives it back when it is deleted; the record of the
index in `taskStates` is neither cleared nor replaced. -/

namespace TrickCFS

def EsGlobal.stopApp (appId : Nat) (es : EsGlobal) : EsGlobal :=
  { es with appTable := Function.update es.appTable appId { es.appTable appId with running := false } }

def Threads.stopApp (appId : Nat) (state : Threads) : Threads :=
  { state with es := state.es.stopApp appId }

inductive AppEvent
  | thread (event : ThreadEvent)
  | stopApp (appId : Nat)
  deriving DecidableEq

def mortalThreads (config : Config) (registeredTasks : Nat) (taskTable priority : Nat → Nat) :
    Machine Threads AppEvent where
  initial := (threads config registeredTasks taskTable priority).initial
  step := fun state event =>
    match event with
    | .thread event => state.step config event
    | .stopApp appId => some (state.stopApp appId)

structure Host where
  threads : Threads
  /-- The live tasks by their index, with whether cFE has registered them. -/
  slots : Nat → Option Bool

inductive HostEvent
  | thread (event : ThreadEvent)
  | stopApp (appId : Nat)
  | createTask (taskId appId : Nat) (registered : Bool)
  | deleteTask (taskId : Nat)
  | exitCommand
  deriving DecidableEq

namespace Host

def isLive (host : Host) (taskId : Nat) : Prop := (host.slots taskId).isSome = true

instance (host : Host) (taskId : Nat) : Decidable (host.isLive taskId) := inferInstanceAs (Decidable (_ = true))

def isRunning (host : Host) (taskId : Nat) : Prop :=
  (host.threads.es.locateAppRecord taskId).running = true

instance (host : Host) (taskId : Nat) : Decidable (host.isRunning taskId) := inferInstanceAs (Decidable (_ = true))

def task (host : Host) (taskId : Nat) : TaskIPC := host.threads.task taskId

variable (config : Config)

/-- cFE counts the tasks that are live and registered. -/
def countTasks (slots : Nat → Option Bool) : Nat :=
  (List.range config.maxTasks).countP (fun taskId => slots taskId = some true)

def setSlot (taskId : Nat) (slot : Option Bool) (host : Host) : Host :=
  let slots := Function.update host.slots taskId slot
  { threads := { host.threads with es := { host.threads.es with registeredTasks := countTasks config slots } }
    slots }

def createTask (taskId appId : Nat) (registered : Bool) (host : Host) : Option Host :=
  if taskId < config.maxTasks ∧ host.slots taskId = none then
    let host := host.setSlot config taskId (some registered)
    some { host with
      threads := { host.threads.setPc taskId .running with
        es := { host.threads.es with
          taskTable := Function.update host.threads.es.taskTable taskId appId } } }
  else none

def deleteTask (taskId : Nat) (host : Host) : Option Host :=
  if host.isLive taskId then some (host.setSlot config taskId none) else none

/-- A step of the threads. The steps of an app task need a live task. -/
def threadStep (event : ThreadEvent) (host : Host) : Option Host :=
  match event.taskOf with
  | some taskId =>
    if host.isLive taskId then (host.threads.step config event).map (fun threads => { host with threads })
    else none
  | none => (host.threads.step config event).map (fun threads => { host with threads })

def step (host : Host) : HostEvent → Option Host
  | .thread event => host.threadStep config event
  | .stopApp appId => some { host with threads := host.threads.stopApp appId }
  | .createTask taskId appId registered => host.createTask config taskId appId registered
  | .deleteTask taskId => host.deleteTask config taskId
  | .exitCommand => some { host with threads := { host.threads with exitCmd := true } }

end Host

def host (config : Config) (priority : Nat → Nat) : Machine Host HostEvent where
  initial :=
    { threads := (threads config 0 (fun _ => 0) priority).initial
      slots := fun _ => none }
  step := Host.step config

end TrickCFS
